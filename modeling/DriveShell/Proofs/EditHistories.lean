import Mathlib.Data.List.Sort
import Mathlib.Data.Set.Card
import DriveShell.Proofs.Entries

/-!
# Histories of edits

A directory that starts empty and is edited is a dictionary that remembers the order of insertion.
What it must hold can be said from the edits alone.  Under a name stands what was stored there last
since the name was last removed (`stored`).  A name is listed by the edit that brought it in, the
first insertion since its last removal (`arrival`).  To store again under a name that is taken
leaves that edit the same, and to insert a removed name again makes it a later one.

`Mirrors` says that a directory agrees with a history in all that can be asked of it.  Each edit
searches the entries for the first one of its name.  Three invariants carry this over a whole
history, each by induction on it: names are distinct (`nodup_ofHistory`), a name gives what was
stored (`get?_ofHistory`), and the entries are in the order of arrival (`pairwise_ofHistory`).  The
second needs the first, since a second entry of a removed name would come to light.  The third
needs the second, since an insertion at the end is one of a name under which nothing is stored.
-/

namespace DriveShell

namespace Directory

variable {d : Directory} {name : Name} {node : Node}

/-! ## What single edits give back -/

theorem exchange_fst (d : Directory) (name : Name) (node : Node) :
    (d.exchange name node).1 = d.get? name := by
  induction d with
  | empty => rfl
  | entry n old rest ih =>
    rw [exchange, get?_entry]
    split
    next => rfl
    next => exact ih

theorem extract_fst (d : Directory) (name : Name) : (d.extract name).1 = d.get? name := by
  induction d with
  | empty => rfl
  | entry n old rest ih =>
    rw [extract, get?_entry]
    split
    next => rfl
    next => exact ih

/-- To replace is to insert where the name is taken. -/
theorem replace?_eq (d : Directory) (name : Name) (node : Node) :
    d.replace? name node = (d.get? name).map fun _ => d.insert name node := by
  induction d with
  | empty => rfl
  | entry n old rest ih =>
    rw [replace?, get?_entry, insert_entry]
    split
    next => rfl
    next =>
      rw [ih, Option.map_map]
      rfl

theorem erase_of_free (free : d.get? name = none) : d.erase name = d := by
  induction d with
  | empty => rfl
  | entry n old rest ih =>
    rw [get?_entry] at free
    split at free
    next => cases free
    next hn => rw [erase_entry, if_neg hn, ih free]

theorem isSome_get?_iff : (d.get? name).isSome = true ↔ name ∈ d.names := by
  rw [Option.isSome_iff_ne_none, ne_eq, get?_eq_none_iff, not_not]

/-! ## Histories -/

/-- One edit of a directory. -/
inductive Edit
  /-- To put a node under a name. -/
  | insert (name : Name) (node : Node)
  /-- To remove a name. -/
  | remove (name : Name)
  /-- To put another node under a name if it is taken. -/
  | replace (name : Name) (node : Node)

/-- The directory after one edit. -/
def edited (d : Directory) : Edit → Directory
  | .insert name node => d.insert name node
  | .remove name => d.erase name
  | .replace name node => (d.replace? name node).getD d

/-- The directory that a history leads to.  The latest edit of a history is its head. -/
def ofHistory (history : List Edit) : Directory :=
  history.foldr (fun edit d => d.edited edit) .empty

/-- What was stored last under a name since it was last removed. -/
def stored (name : Name) : List Edit → Option Node
  | [] => none
  | .insert n node :: earlier => if n = name then some node else stored name earlier
  | .remove n :: earlier => if n = name then none else stored name earlier
  | .replace n node :: earlier =>
    if n = name then (stored name earlier).map fun _ => node else stored name earlier

/-- The number of edits before the one that brought a name in, if the name has not been removed
since. -/
def arrival (name : Name) : List Edit → Option Nat
  | [] => none
  | .insert n _ :: earlier =>
    if n = name then some ((arrival name earlier).getD earlier.length) else arrival name earlier
  | .remove n :: earlier => if n = name then none else arrival name earlier
  | .replace _ _ :: earlier => arrival name earlier

/-- Two names are there, and the first came in before the second. -/
def ArrivedBefore (history : List Edit) (a b : Name) : Prop :=
  ∃ i j, arrival a history = some i ∧ arrival b history = some j ∧ i < j

variable {history : List Edit}

theorem ofHistory_cons (edit : Edit) (earlier : List Edit) :
    ofHistory (edit :: earlier) = (ofHistory earlier).edited edit := rfl

/-- Edits made one after another are a history from its end. -/
theorem ofHistory_reverse (edits : List Edit) :
    ofHistory edits.reverse = edits.foldl edited .empty := List.foldr_reverse

theorem edited_replace (d : Directory) (name : Name) (node : Node) :
    d.edited (.replace name node) = if (d.get? name).isSome then d.insert name node else d := by
  rw [edited, replace?_eq]
  cases d.get? name with
  | none => rfl
  | some old => rfl

/-! ## Distinct names -/

theorem names_replace (d : Directory) (name : Name) (node : Node) :
    (d.edited (.replace name node)).names = d.names := by
  rw [edited_replace]
  split
  next htaken => exact names_insert_of_taken (isSome_get?_iff.1 htaken) node
  next => rfl

theorem nodup_ofHistory (history : List Edit) : (ofHistory history).names.Nodup := by
  induction history with
  | nil => exact List.nodup_nil
  | cons edit earlier ih =>
    cases edit with
    | insert n node => exact nodup_names_insert ih n node
    | remove n =>
      rw [ofHistory_cons, edited, names_erase]
      exact ih.erase n
    | replace n node =>
      rw [ofHistory_cons, names_replace]
      exact ih

/-! ## What is stored -/

theorem get?_ofHistory (history : List Edit) (name : Name) :
    (ofHistory history).get? name = stored name history := by
  induction history with
  | nil => rfl
  | cons edit earlier ih =>
    cases edit with
    | insert n node => rw [ofHistory_cons, edited, get?_insert, stored, ih]
    | remove n =>
      rw [ofHistory_cons, edited, stored]
      split
      next hn => rw [hn, get?_erase_self (nodup_ofHistory earlier)]
      next hn => rw [get?_erase_of_ne _ hn, ih]
    | replace n node =>
      rw [ofHistory_cons, edited_replace, stored]
      -- The test for a taken name is one for what is stored, by the hypothesis for this name.
      by_cases hn : n = name
      · subst hn
        rw [if_pos rfl, ih]
        cases hstored : stored n earlier with
        | none =>
          rw [← ih] at hstored
          exact hstored
        | some old => exact get?_insert_self _ n node
      · rw [if_neg hn, ← ih]
        split
        next => exact get?_insert_of_ne _ hn node
        next => rfl

/-! ## The order of arrival -/

theorem isSome_arrival (name : Name) (history : List Edit) :
    (arrival name history).isSome = (stored name history).isSome := by
  induction history with
  | nil => rfl
  | cons edit earlier ih =>
    cases edit with
    | insert n node =>
      rw [arrival, stored]
      split
      next => rfl
      next => exact ih
    | remove n =>
      rw [arrival, stored]
      split
      next => rfl
      next => exact ih
    | replace n node =>
      rw [arrival, stored, ih]
      split
      next => rw [Option.isSome_map]
      next => rfl

theorem mem_names_ofHistory : name ∈ (ofHistory history).names ↔ (arrival name history).isSome := by
  rw [← isSome_get?_iff, get?_ofHistory, isSome_arrival]

theorem arrival_lt {i : Nat} (h : arrival name history = some i) : i < history.length := by
  induction history with
  | nil => cases h
  | cons edit earlier ih =>
    rw [List.length_cons]
    cases edit with
    | insert n node =>
      rw [arrival] at h
      split at h
      next =>
        cases hearlier : arrival name earlier with
        | none =>
          rw [hearlier] at h
          cases h
          exact Nat.lt_succ_self _
        | some k =>
          rw [hearlier] at h
          cases h
          exact Nat.lt_succ_of_lt (ih hearlier)
      next => exact Nat.lt_succ_of_lt (ih h)
    | remove n =>
      rw [arrival] at h
      split at h
      next => cases h
      next => exact Nat.lt_succ_of_lt (ih h)
    | replace n node => exact Nat.lt_succ_of_lt (ih h)

/-- To insert under a name that is taken brings nothing in. -/
theorem arrival_insert {i : Nat} (h : arrival name history = some i) (n : Name) (node : Node) :
    arrival name (.insert n node :: history) = some i := by
  rw [arrival]
  split
  next => rw [h, Option.getD_some]
  next => exact h

namespace ArrivedBefore

variable {a b n : Name}

theorem insert (h : ArrivedBefore history a b) (n : Name) (node : Node) :
    ArrivedBefore (.insert n node :: history) a b := by
  obtain ⟨i, j, hi, hj, hlt⟩ := h
  exact ⟨i, j, arrival_insert hi n node, arrival_insert hj n node, hlt⟩

theorem remove (h : ArrivedBefore history a b) (ha : a ≠ n) (hb : b ≠ n) :
    ArrivedBefore (.remove n :: history) a b := by
  obtain ⟨i, j, hi, hj, hlt⟩ := h
  refine ⟨i, j, ?_, ?_, hlt⟩
  · rwa [arrival, if_neg (Ne.symm ha)]
  · rwa [arrival, if_neg (Ne.symm hb)]

theorem not_self (name : Name) : ¬ArrivedBefore history name name := by
  rintro ⟨i, j, hi, hj, hlt⟩
  rw [hi, Option.some.injEq] at hj
  exact Nat.ne_of_lt hlt hj

theorem not_both (h : ArrivedBefore history a b) : ¬ArrivedBefore history b a := by
  obtain ⟨i, j, hi, hj, hlt⟩ := h
  rintro ⟨k, l, hk, hl, hgt⟩
  rw [hi, Option.some.injEq] at hl
  rw [hj, Option.some.injEq] at hk
  omega

end ArrivedBefore

/-- The names are listed in the order in which they came in. -/
theorem pairwise_ofHistory (history : List Edit) :
    (ofHistory history).names.Pairwise (ArrivedBefore history) := by
  induction history with
  | nil => exact List.Pairwise.nil
  | cons edit earlier ih =>
    rw [ofHistory_cons]
    cases edit with
    | insert n node =>
      have hkept := ih.imp fun hab => hab.insert n node
      by_cases taken : n ∈ (ofHistory earlier).names
      · rwa [edited, names_insert_of_taken taken]
      · have hnone : arrival n earlier = none :=
          Option.not_isSome_iff_eq_none.1 fun hsome => taken (mem_names_ofHistory.2 hsome)
        have hnew : arrival n (.insert n node :: earlier) = some earlier.length := by
          rw [arrival, if_pos rfl, hnone, Option.getD_none]
        rw [edited, names, toList_insert_of_free (get?_eq_none_iff.2 taken), List.map_append]
        refine List.pairwise_append.2 ⟨hkept, List.pairwise_singleton _ _, fun a ha b hb => ?_⟩
        -- Whatever has come in before has a number below that of the edits so far.
        have hb : b = n := List.mem_singleton.1 hb
        obtain ⟨i, hi⟩ := Option.isSome_iff_exists.1 (mem_names_ofHistory.1 ha)
        exact ⟨i, _, arrival_insert hi n node, hb ▸ hnew, arrival_lt hi⟩
    | remove n =>
      have hnodup : (ofHistory earlier).names.Nodup := nodup_ofHistory earlier
      rw [edited, names_erase]
      refine (ih.sublist List.erase_sublist).imp_of_mem fun ha hb hab => ?_
      exact hab.remove (hnodup.mem_erase_iff.1 ha).1 (hnodup.mem_erase_iff.1 hb).1
    | replace n node =>
      rw [names_replace]
      exact ih

/-! ## The whole dictionary -/

/-- A directory agrees with a history in all that can be asked of it. -/
structure Mirrors (history : List Edit) (d : Directory) : Prop where
  /-- No two entries have one name. -/
  nodup : d.names.Nodup
  /-- A name gives what was stored under it last since it was last removed. -/
  get? : ∀ name, d.get? name = stored name history
  /-- A name is taken if anything is stored under it. -/
  contains : ∀ name, d.contains name = (stored name history).isSome
  /-- The entries are what is stored, in the order of arrival, and no other list is. -/
  toList : ∀ entries, entries = d.toList ↔
    entries.Pairwise (fun a b => ArrivedBefore history a.1 b.1) ∧
      ∀ name node, (name, node) ∈ entries ↔ stored name history = some node
  /-- There are as many entries as names under which anything is stored. -/
  size : d.size = {name | (stored name history).isSome}.ncard
  /-- There are no entries if there are no such names. -/
  isEmpty : d.isEmpty = true ↔ ∀ name, stored name history = none
  /-- An insertion gives back what was stored.  It replaces that in its place, or goes to the end. -/
  insert : ∀ name node, (d.exchange name node).1 = stored name history ∧
    (stored name history = none → Appended name node d (d.insert name node)) ∧
    (stored name history ≠ none → Replaced name node d (d.insert name node))
  /-- A removal gives back what was stored and keeps the others in their order. -/
  remove : ∀ name, (d.extract name).1 = stored name history ∧
    (stored name history = none → d.erase name = d) ∧
    (stored name history ≠ none → Deleted name d (d.erase name))
  /-- To replace is to insert, but only where something is stored. -/
  replace : ∀ name node,
    d.replace? name node = (stored name history).map fun _ => d.insert name node

theorem mem_toList_iff (h : d.names.Nodup) :
    (name, node) ∈ d.toList ↔ d.get? name = some node := by
  refine ⟨fun hmem => ?_, mem_of_get?⟩
  induction d with
  | empty => cases hmem
  | entry n old rest ih =>
    rw [names_entry, List.nodup_cons] at h
    rw [toList_entry, List.mem_cons] at hmem
    rw [get?_entry]
    rcases hmem with heq | hmem
    · cases heq
      exact if_pos rfl
    · have hn : n ≠ name := by
        rintro rfl
        exact h.1 (List.mem_map_of_mem hmem)
      rw [if_neg hn, ih h.2 hmem]

/-- What is stored and the order of arrival leave only one list of entries. -/
theorem toList_ofHistory_iff {entries : List (Name × Node)} :
    entries = (ofHistory history).toList ↔
      entries.Pairwise (fun a b => ArrivedBefore history a.1 b.1) ∧
        ∀ name node, (name, node) ∈ entries ↔ stored name history = some node := by
  have hordered : (ofHistory history).toList.Pairwise fun a b => ArrivedBefore history a.1 b.1 :=
    List.pairwise_map.1 (pairwise_ofHistory history)
  have hstored : ∀ name node,
      (name, node) ∈ (ofHistory history).toList ↔ stored name history = some node := by
    intro name node
    rw [mem_toList_iff (nodup_ofHistory history), get?_ofHistory]
  constructor
  · rintro rfl
    exact ⟨hordered, hstored⟩
  · rintro ⟨hentries, hmem⟩
    have hnodup : ∀ {list : List (Name × Node)},
        list.Pairwise (fun a b => ArrivedBefore history a.1 b.1) → list.Nodup := by
      intro list hlist
      refine hlist.imp fun hab heq => ?_
      rw [heq] at hab
      exact ArrivedBefore.not_self _ hab
    have hperm := (List.perm_ext_iff_of_nodup (hnodup hentries) (hnodup hordered)).2
      fun entry => (hmem entry.1 entry.2).trans (hstored entry.1 entry.2).symm
    exact hperm.eq_of_pairwise (fun a b _ _ hab hba => absurd hba hab.not_both) hentries hordered

theorem size_ofHistory (history : List Edit) :
    (ofHistory history).size = {name | (stored name history).isSome}.ncard := by
  have hnames : {name | (stored name history).isSome} =
      ((ofHistory history).names.toFinset : Set Name) := by
    ext name
    rw [List.coe_toFinset, Set.mem_ofPred_eq, Set.mem_ofPred_eq, mem_names_ofHistory, isSome_arrival]
  rw [hnames, Set.ncard_coe_finset, List.toFinset_card_of_nodup (nodup_ofHistory history), names,
    List.length_map, size]

theorem isEmpty_iff : d.isEmpty = true ↔ ∀ name, d.get? name = none := by
  cases d with
  | empty => exact iff_of_true rfl get?_empty
  | entry n old rest =>
    have hn : (entry n old rest).get? n = some old := if_pos rfl
    refine iff_of_false Bool.false_ne_true fun hnone => ?_
    rw [hnone n] at hn
    cases hn

/-- After any sequence of insertions, removals and replacements, a directory that was empty is a
dictionary in the order of insertion.  Names are distinct, and each has what was stored under it
last since its last removal.  The entries are in the order in which their names came in.  One more
edit gives back what is stored under its name.  It changes that in its place, takes it out, or adds
it at the end, and leaves the others in their order. -/
theorem mirrors_edits (edits : List Edit) :
    Mirrors edits.reverse (edits.foldl edited .empty) := by
  rw [← ofHistory_reverse]
  generalize edits.reverse = history
  exact {
    nodup := nodup_ofHistory history
    get? := get?_ofHistory history
    contains := fun name => by rw [contains, get?_ofHistory]
    toList := fun entries => toList_ofHistory_iff
    size := size_ofHistory history
    isEmpty := by simp only [isEmpty_iff, get?_ofHistory]
    insert := fun name node => by
      rw [exchange_fst, ← get?_ofHistory]
      refine ⟨rfl, fun free => appended_insert free node, fun taken => ?_⟩
      obtain ⟨old, hold⟩ := Option.ne_none_iff_exists'.1 taken
      exact replaced_insert hold node
    remove := fun name => by
      rw [extract_fst, ← get?_ofHistory]
      refine ⟨rfl, erase_of_free, fun taken => ?_⟩
      obtain ⟨old, hold⟩ := Option.ne_none_iff_exists'.1 taken
      exact deleted_erase hold
    replace := fun name node => by rw [replace?_eq, get?_ofHistory] }

/-- A name that is removed and inserted again comes after one that has stayed. -/
example : ([.insert "a" (.file "1"), .insert "b" (.file "2"), .remove "a", .insert "a" (.file "3"),
    .replace "b" (.file "4"), .replace "c" (.file "5")].foldl edited .empty).toList =
    [("b".toList, .file "4"), ("a".toList, .file "3")] := by decide

end Directory

end DriveShell
