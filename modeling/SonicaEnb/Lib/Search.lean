import Mathlib.Data.List.Nodup
import SonicaEnb.Lib.SortedMap

/-! # Tables searched by their values

A hash table has no order of its own: a search for a value walks the keys in some
order and stops at the first value that suits. The order is an argument here, a
permutation of the keys. Where at most one value suits, it makes no difference.
-/

namespace SortedMap

variable {κ α β : Type} [LinearOrder κ]

/-- The first key of the walk whose value suits. -/
def search (m : SortedMap κ α) (walk : List κ) (suits : α → Bool) : Option κ :=
  walk.find? fun k => (m.find? k).any suits

variable {m m' : SortedMap κ α} {walk walk' : List κ} {suits : α → Bool} {k : κ}

theorem search_some (found : m.search walk suits = some k) :
    ∃ v, m.find? k = some v ∧ suits v = true := by
  unfold search at found
  have good := List.find?_some found
  rwa [Option.any_eq_true] at good

theorem search_isSome (walks : walk.Perm m.keys) :
    (m.search walk suits).isSome ↔ ∃ k v, m.find? k = some v ∧ suits v = true := by
  constructor
  · intro found
    obtain ⟨k, found⟩ := Option.isSome_iff_exists.mp found
    exact ⟨k, search_some found⟩
  · rintro ⟨k, v, here, good⟩
    have member : k ∈ walk := by
      rw [walks.mem_iff, mem_keys_iff, here]
      rfl
    exact List.find?_isSome.mpr ⟨k, member, by simp [here, good]⟩

theorem search_none (walks : walk.Perm m.keys) :
    m.search walk suits = none ↔ ∀ k v, m.find? k = some v → suits v = false := by
  rw [← Option.not_isSome_iff_eq_none, search_isSome walks]
  simp only [not_exists, not_and, Bool.not_eq_true]

/-- At most one value suits. -/
def OneSuits (m : SortedMap κ α) (suits : α → Bool) : Prop :=
  ∀ j v k w, m.find? j = some v → m.find? k = some w → suits v = true → suits w = true → j = k

/-- Where at most one value suits, the search finds it. -/
theorem OneSuits.search_iff (one : m.OneSuits suits) (walks : walk.Perm m.keys) :
    m.search walk suits = some k ↔ ∃ v, m.find? k = some v ∧ suits v = true := by
  constructor
  · exact search_some
  · rintro ⟨v, here, good⟩
    obtain ⟨j, found⟩ := Option.isSome_iff_exists.mp ((search_isSome walks).mpr ⟨k, v, here, good⟩)
    obtain ⟨w, there, suited⟩ := search_some found
    rw [found, one j w k v there here suited good]

/-- The order of the walk makes no difference exactly where at most one value suits. -/
theorem oneSuits_iff : m.OneSuits suits ↔
    ∀ walk walk', walk.Perm m.keys → walk'.Perm m.keys →
      m.search walk suits = m.search walk' suits := by
  constructor
  · intro one walk walk' walks walks'
    apply Option.ext
    intro k
    rw [one.search_iff walks, one.search_iff walks']
  · intro same j v k w hereJ hereK suitsJ suitsK
    -- a walk that begins with a key that suits stops there
    have first {i : κ} {u : α} (here : m.find? i = some u) (good : suits u = true) :
        ∃ walk, walk.Perm m.keys ∧ m.search walk suits = some i := by
      have member : i ∈ m.keys := by
        rw [mem_keys_iff, here]
        rfl
      refine ⟨i :: m.keys.erase i, (List.perm_cons_erase member).symm, ?_⟩
      simp [search, here, good]
    obtain ⟨walkJ, walksJ, foundJ⟩ := first hereJ suitsJ
    obtain ⟨walkK, walksK, foundK⟩ := first hereK suitsK
    have equal := same walkJ walkK walksJ walksK
    rw [foundJ, foundK] at equal
    exact Option.some.inj equal

/-! ## Maps by what they hold -/

theorem find?_of_mem_entries {v : α} (member : (k, v) ∈ m.entries) : m.find? k = some v := by
  have known : (m.find? k).isSome := by
    rw [← mem_keys_iff]
    exact List.mem_map.mpr ⟨(k, v), member, rfl⟩
  obtain ⟨w, found⟩ := Option.isSome_iff_exists.mp known
  have same := List.inj_on_of_nodup_map m.keys_nodup member (mem_entries_of_find? found) rfl
  rw [found, (Prod.mk.inj same).2]

theorem any_entries_iff {p : α → Bool} :
    (m.entries.any fun e => p e.2) = true ↔ ∃ k v, m.find? k = some v ∧ p v = true := by
  rw [List.any_eq_true]
  constructor
  · rintro ⟨⟨k, v⟩, member, good⟩
    exact ⟨k, v, find?_of_mem_entries member, good⟩
  · rintro ⟨k, v, found, good⟩
    exact ⟨(k, v), mem_entries_of_find? found, good⟩

/-- Two maps that answer every lookup alike are the same. -/
theorem ext_find? (same : ∀ k, m.find? k = m'.find? k) : m = m' := by
  obtain ⟨es, sorted⟩ := m
  obtain ⟨es', sorted'⟩ := m'
  have equal : es = es' := by
    apply List.Perm.eq_of_pairwise _ (List.pairwise_map.mp sorted) (List.pairwise_map.mp sorted')
    · rw [List.perm_ext_iff_of_nodup]
      · intro e
        constructor
        · intro member
          have found := find?_of_mem_entries (m := ⟨es, sorted⟩) member
          rw [same] at found
          exact mem_entries_of_find? found
        · intro member
          have found := find?_of_mem_entries (m := ⟨es', sorted'⟩) member
          rw [← same] at found
          exact mem_entries_of_find? found
      · exact (keys_nodup ⟨es, sorted⟩).of_map
      · exact (keys_nodup ⟨es', sorted'⟩).of_map
    · intro e e' _ _ below above
      exact absurd below above.asymm
  cases equal
  rfl

/-- The same keys with other values. -/
def map (f : α → β) (m : SortedMap κ α) : SortedMap κ β :=
  ⟨m.entries.map fun e => (e.1, f e.2), by
    rw [List.map_map]
    exact m.sorted⟩

@[simp] theorem find?_map (f : α → β) (m : SortedMap κ α) (k : κ) :
    (m.map f).find? k = (m.find? k).map f := by
  unfold find? map
  simp [List.find?_map, Function.comp_def]

end SortedMap
