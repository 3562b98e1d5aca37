import Mathlib.Order.Basic
import Mathlib.Order.Defs.LinearOrder
import Mathlib.Data.List.Basic
import Mathlib.Data.Finset.Dedup

/-! # Ordered maps

A map whose entries stand in the order of their keys, so that walking it from
the first entry visits the keys in increasing order. The order is a field:
there is no unsorted map, and no key occurs twice.
-/

structure SortedMap (κ α : Type) [LinearOrder κ] where
  entries : List (κ × α)
  sorted : (entries.map Prod.fst).Pairwise (· < ·)

namespace SortedMap

variable {κ α : Type} [LinearOrder κ]

def empty : SortedMap κ α := ⟨[], .nil⟩

def keys (m : SortedMap κ α) : List κ := m.entries.map Prod.fst

def find? (m : SortedMap κ α) (k : κ) : Option α :=
  (m.entries.find? (fun e => decide (e.1 = k))).map Prod.snd

def insertEntry (k : κ) (v : α) : List (κ × α) → List (κ × α)
  | [] => [(k, v)]
  | e :: rest =>
      if k < e.1 then (k, v) :: e :: rest
      else if k = e.1 then (k, v) :: rest
      else e :: insertEntry k v rest

theorem mem_keys_insertEntry {k x : κ} {v : α} {es : List (κ × α)}
    (member : x ∈ (insertEntry k v es).map Prod.fst) : x = k ∨ x ∈ es.map Prod.fst := by
  induction es with
  | nil => simpa [insertEntry] using member
  | cons e rest ih =>
      simp only [insertEntry] at member
      split at member
      · simpa using member
      · split at member
        · rename_i same
          simp only [List.map_cons, List.mem_cons] at member ⊢
          exact member.elim .inl (fun h => .inr (.inr h))
        · simp only [List.map_cons, List.mem_cons] at member ⊢
          rcases member with here | there
          · exact .inr (.inl here)
          · exact (ih there).imp_right .inr

theorem insertEntry_sorted {k : κ} {v : α} {es : List (κ × α)}
    (sorted : (es.map Prod.fst).Pairwise (· < ·)) :
    ((insertEntry k v es).map Prod.fst).Pairwise (· < ·) := by
  induction es with
  | nil => simp [insertEntry]
  | cons e rest ih =>
      obtain ⟨before, tail⟩ := List.pairwise_cons.mp sorted
      simp only [insertEntry]
      split
      · rename_i below
        refine List.pairwise_cons.mpr ⟨?_, sorted⟩
        intro x member
        rcases List.mem_cons.mp member with rfl | later
        · exact below
        · exact below.trans (before x later)
      · split
        · rename_i same
          exact List.pairwise_cons.mpr ⟨fun x member => same ▸ before x member, tail⟩
        · rename_i notBelow notSame
          refine List.pairwise_cons.mpr ⟨?_, ih tail⟩
          intro x member
          rcases mem_keys_insertEntry member with rfl | later
          · exact lt_of_le_of_ne (not_lt.mp notBelow) (Ne.symm notSame)
          · exact before x later

def insert (m : SortedMap κ α) (k : κ) (v : α) : SortedMap κ α :=
  ⟨insertEntry k v m.entries, insertEntry_sorted m.sorted⟩

def erase (m : SortedMap κ α) (k : κ) : SortedMap κ α :=
  ⟨m.entries.filter (fun e => decide (e.1 ≠ k)),
    m.sorted.sublist (List.filter_sublist.map Prod.fst)⟩

def modifyEntry (k : κ) (f : α → α) (e : κ × α) : κ × α := if e.1 = k then (e.1, f e.2) else e

theorem modifyEntry_fst (k : κ) (f : α → α) (e : κ × α) : (modifyEntry k f e).1 = e.1 := by
  unfold modifyEntry
  split <;> rfl

theorem keys_modifyEntries (k : κ) (f : α → α) (es : List (κ × α)) :
    (es.map (modifyEntry k f)).map Prod.fst = es.map Prod.fst := by
  simp [List.map_map, Function.comp_def, modifyEntry_fst]

/-- Change the value under `k` in place; nothing happens when `k` is absent. -/
def modify (m : SortedMap κ α) (k : κ) (f : α → α) : SortedMap κ α :=
  ⟨m.entries.map (modifyEntry k f), by rw [keys_modifyEntries]; exact m.sorted⟩

@[simp] theorem keys_modify (m : SortedMap κ α) (k : κ) (f : α → α) :
    (m.modify k f).keys = m.keys := keys_modifyEntries k f m.entries

theorem keys_nodup (m : SortedMap κ α) : m.keys.Nodup :=
  m.sorted.imp (fun lt => ne_of_lt lt)

theorem mem_keys_iff (m : SortedMap κ α) (k : κ) : k ∈ m.keys ↔ (m.find? k).isSome := by
  simp [keys, find?, List.mem_map]

theorem find?_insertEntry (k j : κ) (v : α) (es : List (κ × α)) :
    ((insertEntry k v es).find? (fun e => decide (e.1 = j))).map Prod.snd =
      if j = k then some v else (es.find? (fun e => decide (e.1 = j))).map Prod.snd := by
  induction es with
  | nil =>
      by_cases same : j = k
      · simp [insertEntry, same]
      · simp [insertEntry, same, Ne.symm same]
  | cons e rest ih =>
      simp only [insertEntry]
      by_cases same : j = k
      · subst same
        split
        · simp
        · split
          · simp
          · rename_i notSame
            simp only [if_true] at ih
            simp [Ne.symm notSame, ih]
      · simp only [same, if_false] at ih ⊢
        split
        · simp [List.find?_cons, Ne.symm same]
        · split
          · rename_i here
            simp [Ne.symm same, ← here]
          · simp only [List.find?_cons]
            split
            · rfl
            · exact ih

theorem find?_insert (m : SortedMap κ α) (k j : κ) (v : α) :
    (m.insert k v).find? j = if j = k then some v else m.find? j :=
  find?_insertEntry k j v m.entries

theorem find?_erase (m : SortedMap κ α) (k j : κ) :
    (m.erase k).find? j = if j = k then none else m.find? j := by
  unfold find? erase
  by_cases same : j = k
  · subst same
    simp [List.find?_filter]
  · simp only [List.find?_filter, same, if_false]
    congr 2
    funext e
    by_cases here : e.1 = j
    · simp [here, same]
    · simp [here]

theorem find?_modify (m : SortedMap κ α) (k j : κ) (f : α → α) :
    (m.modify k f).find? j = if j = k then (m.find? j).map f else m.find? j := by
  unfold find? modify
  rw [List.find?_map]
  have same : (fun e : κ × α => decide (e.1 = j)) ∘ modifyEntry k f =
      fun e => decide (e.1 = j) := by
    funext e
    simp [modifyEntry_fst]
  rw [same]
  cases found : m.entries.find? (fun e => decide (e.1 = j)) with
  | none => simp
  | some e =>
      have key : e.1 = j := by simpa using List.find?_some found
      by_cases here : j = k
      · simp [modifyEntry, key, here]
      · simp [modifyEntry, key, here]

theorem mem_entries_of_find? {m : SortedMap κ α} {k : κ} {v : α} (found : m.find? k = some v) :
    (k, v) ∈ m.entries := by
  obtain ⟨e, here, rfl⟩ := Option.map_eq_some_iff.mp found
  have key : e.1 = k := by simpa using List.find?_some here
  subst key
  exact List.mem_of_find?_eq_some here

/-! ## Keys as a set -/

def keySet (m : SortedMap κ α) : Finset κ := m.keys.toFinset

theorem mem_keySet {m : SortedMap κ α} {k : κ} : k ∈ m.keySet ↔ (m.find? k).isSome := by
  rw [keySet, List.mem_toFinset, mem_keys_iff]

theorem mem_keySet_insert {m : SortedMap κ α} {k j : κ} {v : α} :
    j ∈ (m.insert k v).keySet ↔ j = k ∨ j ∈ m.keySet := by
  rw [mem_keySet, mem_keySet, find?_insert]
  split
  · simp [*]
  · simp [*]

theorem mem_keySet_erase {m : SortedMap κ α} {k j : κ} :
    j ∈ (m.erase k).keySet ↔ j ≠ k ∧ j ∈ m.keySet := by
  rw [mem_keySet, mem_keySet, find?_erase]
  split
  · simp [*]
  · simp [*]

@[simp] theorem keySet_modify (m : SortedMap κ α) (k : κ) (f : α → α) :
    (m.modify k f).keySet = m.keySet := by
  rw [keySet, keys_modify, keySet]

end SortedMap
