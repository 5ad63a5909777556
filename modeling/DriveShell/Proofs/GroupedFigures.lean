import DriveShell.Proofs.Splitting
import DriveShell.Text.Grouped

/-!
# Grouped figures

The commas of a grouped figure are put in from the left, each by the number of digits that are
still to come.  Seen from the right they stand after every third digit.  The induction along the
digits carries how long the first group is: as many digits as the last of the threes leaves over,
or three if none is left over (`split_groupDigits`).

Such a grouping is the only one that the digits have.  Their number determines how many groups
there are and how long the first one is, and then the digits themselves fill them
(`InThrees.eq_of_ungrouped`).  So a text is the grouped figure of a number exactly if it has the
digits of the number in groups of three.

Without its commas a figure is read as the number that it shows (`figure_grouped`).
-/

namespace DriveShell

namespace Text

variable {digits s t : Text}

/-! ## Reading -/

/-- A text without its commas. -/
def ungrouped (t : Text) : Text := t.filter (· ≠ ',')

/-- The number that a figure shows, grouped or not. -/
def figure (t : Text) : Nat := Nat.ofDigitChars 10 (ungrouped t) 0

/-- The commas of a text part its digits into groups of three, but for the first group, which has
one to three. -/
def InThrees (t : Text) : Prop :=
  ∃ first others, split ',' t = first :: others ∧
    (∀ group ∈ first :: others, ∀ c ∈ group, c.isDigit = true) ∧
    1 ≤ first.length ∧ first.length ≤ 3 ∧ ∀ group ∈ others, group.length = 3

@[simp] theorem ungrouped_comma (t : Text) : ungrouped (',' :: t) = ungrouped t := rfl

theorem ungrouped_cons {c : Char} (h : ',' ≠ c) (t : Text) : ungrouped (c :: t) = c :: ungrouped t :=
  List.filter_cons_of_pos (decide_eq_true h.symm)

theorem ungrouped_of_plain (plain : ',' ∉ t) : ungrouped t = t := by
  refine List.filter_eq_self.2 fun c hc => decide_eq_true ?_
  rintro rfl
  exact plain hc

/-- The pieces of a text are what is left of it without the separators. -/
theorem flatten_split (separator : Char) (t : Text) :
    (split separator t).flatten = t.filter (· ≠ separator) := by
  induction t with
  | nil => rfl
  | cons c t ih =>
    rw [split_cons]
    by_cases hc : c = separator
    · rw [if_pos hc, List.flatten_cons, ih, List.filter_cons_of_neg (by simpa using hc)]
      rfl
    · rw [if_neg hc, List.filter_cons_of_pos (by simpa using hc), ← ih, split]
      rfl

/-! ## Where the commas stand -/

theorem ungrouped_groupDigits (plain : ',' ∉ digits) : ungrouped (groupDigits digits) = digits := by
  induction digits with
  | nil => rfl
  | cons d rest ih =>
    obtain ⟨hd, hrest⟩ : ',' ≠ d ∧ ',' ∉ rest := by simpa using plain
    rw [groupDigits]
    split
    next => rw [ungrouped_cons hd, ungrouped_comma, ih hrest]
    next => rw [ungrouped_cons hd, ih hrest]

/-- The first group has the digits that are left over by threes, and all others have three. -/
theorem split_groupDigits (nonempty : digits ≠ []) (plain : ',' ∉ digits) :
    ∃ first others, split ',' (groupDigits digits) = first :: others ∧
      first.length = (digits.length - 1) % 3 + 1 ∧ ∀ group ∈ others, group.length = 3 := by
  induction digits with
  | nil => exact absurd rfl nonempty
  | cons d rest ih =>
    obtain ⟨hd, hplain⟩ : ',' ≠ d ∧ ',' ∉ rest := by simpa using plain
    rw [groupDigits, List.length_cons, Nat.add_sub_cancel]
    by_cases hrest : rest = []
    · subst hrest
      have hlone : ',' ∉ [d] := by simpa using hd
      rw [if_neg (by simp)]
      exact ⟨[d], [], split_plain hlone, rfl, List.forall_mem_nil _⟩
    · obtain ⟨first, others, hsplit, hfirst, hothers⟩ := ih hrest hplain
      have hlength : 0 < rest.length := List.length_pos_iff.2 hrest
      by_cases hthree : rest.length % 3 = 0
      -- The groups of the rest are full, and the digit begins one of its own.
      · rw [if_pos ⟨hrest, hthree⟩, split_cons, if_neg (Ne.symm hd), split_cons, if_pos rfl, hsplit]
        refine ⟨[d], first :: others, rfl, by rw [hthree]; rfl, ?_⟩
        exact List.forall_mem_cons.2 ⟨by omega, hothers⟩
      · rw [if_neg fun h => hthree h.2, split_cons, if_neg (Ne.symm hd), hsplit]
        refine ⟨d :: first, others, rfl, ?_, hothers⟩
        rw [List.length_cons]
        omega

/-- Digits have one grouping. -/
theorem InThrees.eq_of_ungrouped (hs : InThrees s) (ht : InThrees t)
    (h : ungrouped s = ungrouped t) : s = t := by
  obtain ⟨first, others, hsplit, -, hpos, hle, hothers⟩ := hs
  obtain ⟨first', others', hsplit', -, hpos', hle', hothers'⟩ := ht
  have hflatten : (first :: others).flatten = (first' :: others').flatten := by
    rw [← hsplit, ← hsplit', flatten_split, flatten_split]
    exact h
  have hthrees : others.map List.length = List.replicate others.length 3 :=
    List.map_eq_replicate_iff.2 hothers
  have hthrees' : others'.map List.length = List.replicate others'.length 3 :=
    List.map_eq_replicate_iff.2 hothers'
  have hlength := congrArg List.length hflatten
  rw [List.length_flatten, List.length_flatten, List.map_cons, List.map_cons, hthrees, hthrees',
    List.sum_cons, List.sum_cons, List.sum_replicate_nat, List.sum_replicate_nat] at hlength
  have hfirst : first.length = first'.length := by omega
  have hcount : others.length = others'.length := by omega
  have hgroups : first :: others = first' :: others' := by
    refine List.eq_iff_flatten_eq.2 ⟨hflatten, ?_⟩
    rw [List.map_cons, List.map_cons, hthrees, hthrees', hfirst, hcount]
  rw [← join_split ',' s, hsplit, hgroups, ← hsplit', join_split]

/-! ## Figures -/

theorem isDigit_of_mem_ofNat {n : Nat} {c : Char} (h : c ∈ ofNat n) : c.isDigit = true :=
  Nat.isDigit_of_mem_toDigits (by decide) (by decide) h

theorem ofNat_ne_nil (n : Nat) : ofNat n ≠ [] := Nat.toDigits_ne_nil

theorem comma_notMem_ofNat (n : Nat) : ',' ∉ ofNat n := by
  intro h
  exact absurd (isDigit_of_mem_ofNat h) (by decide)

theorem ungrouped_grouped (n : Nat) : ungrouped (grouped n) = ofNat n :=
  ungrouped_groupDigits (comma_notMem_ofNat n)

@[simp] theorem figure_ofNat (n : Nat) : figure (ofNat n) = n := by
  rw [figure, ungrouped_of_plain (comma_notMem_ofNat n)]
  exact Nat.ofDigitChars_ten_toDigits

@[simp] theorem figure_grouped (n : Nat) : figure (grouped n) = n := by
  have hplain := ungrouped_of_plain (comma_notMem_ofNat n)
  have hfigure := figure_ofNat n
  rwa [figure, hplain, ← ungrouped_grouped, ← figure] at hfigure

theorem inThrees_grouped (n : Nat) : InThrees (grouped n) := by
  obtain ⟨first, others, hsplit, hfirst, hothers⟩ :=
    split_groupDigits (ofNat_ne_nil n) (comma_notMem_ofNat n)
  have hflatten : (first :: others).flatten = ofNat n := by
    rw [← hsplit, flatten_split]
    exact ungrouped_grouped n
  refine ⟨first, others, hsplit, fun group hgroup c hc => ?_, by omega, by omega, hothers⟩
  have hmem : c ∈ (first :: others).flatten := List.mem_flatten.2 ⟨group, hgroup, hc⟩
  rw [hflatten] at hmem
  exact isDigit_of_mem_ofNat hmem

/-- A text is the grouped figure of a number exactly if it is the decimal digits of the number when
its commas are deleted, and its commas part it into groups of three digits after a first one of one
to three.  Two numbers have two figures, and every figure is read back as its number. -/
theorem eq_grouped_iff :
    (∀ n t, t = grouped n ↔ ungrouped t = Nat.toDigits 10 n ∧ InThrees t) ∧
    Function.Injective grouped ∧
    ∀ n, figure (grouped n) = n := by
  refine ⟨fun n t => ⟨?_, fun ⟨hdigits, hthrees⟩ => ?_⟩, fun m n h => ?_, figure_grouped⟩
  · rintro rfl
    exact ⟨ungrouped_grouped n, inThrees_grouped n⟩
  · exact InThrees.eq_of_ungrouped hthrees (inThrees_grouped n)
      (hdigits.trans (ungrouped_grouped n).symm)
  · rw [← figure_grouped m, h, figure_grouped]

/-- The largest number of sixty-four bits, whose first group is not full. -/
example : grouped 18446744073709551615 = "18,446,744,073,709,551,615".toList := by decide

end Text

end DriveShell
