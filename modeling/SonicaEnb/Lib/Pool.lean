import Mathlib.Data.List.ReduceOption

/-! # A pool of items

Items are taken out of a pool and given back to it. The pool knows which are out,
but not who has them: that is an account kept beside it, a list of the items held
somewhere. What is given back must be out; anything else changes nothing.
-/

/-- The items in the pool, the next one first, and the items that are out. -/
structure Pool (α : Type) where
  available : List α
  used : List α

namespace Pool

variable {α : Type}

/-- A pool from which nothing was taken yet. -/
def full (all : List α) : Pool α := ⟨all, []⟩

def allocate (p : Pool α) : Option (α × Pool α) :=
  match p.available with
  | [] => none
  | item :: rest => some (item, ⟨rest, p.used ++ [item]⟩)

def deallocate [DecidableEq α] (p : Pool α) (item : α) : Bool × Pool α :=
  if item ∈ p.used then (true, ⟨item :: p.available, p.used.erase item⟩) else (false, p)

/-- Each item of `all` is in the pool, or is one of the items held. -/
structure Accounts (all : List α) (p : Pool α) (held : List α) : Prop where
  whole : (p.available ++ p.used).Perm all
  out : p.used.Perm held

theorem accounts_full (all : List α) : Accounts all (full all) [] :=
  ⟨by rw [full, List.append_nil], .refl _⟩

namespace Accounts

variable {all held held' : List α} {p p' : Pool α} {item : α}

theorem perm (accounts : Accounts all p held) : (p.available ++ held).Perm all :=
  (accounts.out.symm.append_left p.available).trans accounts.whole

/-- Items that change hands outside the pool. -/
theorem pass (accounts : Accounts all p held) (same : held.Perm held') : Accounts all p held' :=
  ⟨accounts.whole, accounts.out.trans same⟩

theorem allocate (accounts : Accounts all p held) (got : p.allocate = some (item, p')) :
    Accounts all p' (item :: held) := by
  unfold Pool.allocate at got
  split at got
  · cases got
  · rename_i rest shape
    cases got
    have last : (p.used ++ [item]).Perm (item :: p.used) := List.perm_append_singleton item p.used
    refine ⟨?_, last.trans (accounts.out.cons item)⟩
    have whole := accounts.whole
    rw [shape] at whole
    exact (last.append_left rest).trans (List.perm_middle.trans whole)

theorem deallocate [DecidableEq α] (accounts : Accounts all p (item :: held)) :
    Accounts all (p.deallocate item).2 held := by
  have out : item ∈ p.used := accounts.out.mem_iff.mpr List.mem_cons_self
  rw [Pool.deallocate, if_pos out]
  refine ⟨?_, ?_⟩
  · have back := (List.perm_cons_erase out).append_left p.available
    exact (List.perm_middle.symm.trans back.symm).trans accounts.whole
  · have rest := accounts.out.erase item
    rwa [List.erase_cons_head] at rest

/-- What does not come from the pool cannot be given back to it. -/
theorem deallocate_foreign [DecidableEq α] (accounts : Accounts all p held)
    (foreign : item ∉ all) : (p.deallocate item).2 = p := by
  have notOut : item ∉ p.used := fun out =>
    foreign (accounts.whole.mem_iff.mp (List.mem_append_right _ out))
  rw [Pool.deallocate, if_neg notOut]

end Accounts

end Pool

theorem List.reduceOption_cons {α : Type} (slot : Option α) (rest : List (Option α)) :
    (slot :: rest).reduceOption = slot.toList ++ rest.reduceOption := by
  cases slot <;> rfl

/-- Replacing what a slot holds: the old content is out of the slots, the new one is in them. -/
theorem List.reduceOption_set {α : Type} {slots : List (Option α)} {i : Nat} {old : Option α}
    (here : slots[i]? = some old) (new : Option α) :
    (old.toList ++ (slots.set i new).reduceOption).Perm (new.toList ++ slots.reduceOption) := by
  induction slots generalizing i with
  | nil => cases here
  | cons slot rest ih =>
      cases i with
      | zero =>
          cases here
          rw [List.set_cons_zero, reduceOption_cons, reduceOption_cons]
          exact List.perm_append_comm_assoc ..
      | succ i =>
          have later := (ih here).append_left slot.toList
          rw [List.set_cons_succ, reduceOption_cons, reduceOption_cons]
          exact (List.perm_append_comm_assoc ..).trans (later.trans (List.perm_append_comm_assoc ..))
