import Mathlib.Algebra.Ring.Nat
import Mathlib.Data.List.TakeWhile

/-! # A stream read in blocks

A stream of samples arrives in pieces and is read in blocks of `n` samples. What
does not fill a block yet is kept for the next piece. A reader that keeps all of
it cannot tell where the pieces end. One that is `forgetful` keeps the last piece
only: it loses what it had when a piece starts and ends inside one block.
-/

namespace Blocks

variable {α : Type} {n : Nat} {s t : List α}

/-- The blocks that a stream fills. -/
def full (n : Nat) (s : List α) : List (List α) :=
  (List.range (s.length / n)).map fun i => (s.drop (n * i)).take n

/-- What a stream leaves of a block it does not fill. -/
def rest (n : Nat) (s : List α) : List α := s.drop (n * (s.length / n))

@[simp] theorem full_length (s : List α) : (full n s).length = s.length / n := by
  rw [full, List.length_map, List.length_range]

@[simp] theorem rest_length (s : List α) : (rest n s).length = s.length % n := by
  rw [rest, List.length_drop, Nat.mod_eq_sub_mul_div]

theorem full_getElem? {m : Nat} (filled : m < s.length / n) :
    (full n s)[m]? = some ((s.drop (n * m)).take n) := by
  rw [full, List.getElem?_map, List.getElem?_range filled]
  rfl

theorem full_of_short (short : s.length < n) : full n s = [] := by
  rw [full, Nat.div_eq_of_lt short]
  rfl

theorem rest_of_short (short : s.length < n) : rest n s = s := by
  rw [rest, Nat.div_eq_of_lt short, Nat.mul_zero, List.drop_zero]

theorem div_of_long (pos : 0 < n) (long : n ≤ s.length) : s.length / n = (s.drop n).length / n + 1 := by
  rw [List.length_drop, Nat.div_eq_sub_div pos long]

theorem full_of_long (pos : 0 < n) (long : n ≤ s.length) :
    full n s = s.take n :: full n (s.drop n) := by
  rw [full, div_of_long pos long, List.range_succ_eq_map, List.map_cons, List.map_map, full]
  congr 1
  apply List.map_congr_left
  intro i _
  rw [Function.comp_apply, List.drop_drop, Nat.mul_succ, Nat.add_comm n]

theorem rest_of_long (pos : 0 < n) (long : n ≤ s.length) : rest n s = rest n (s.drop n) := by
  rw [rest, div_of_long pos long, rest, List.drop_drop, Nat.mul_add, Nat.mul_one, Nat.add_comm n]

/-- A stream is short, or one block longer than another. -/
theorem stream_induction (pos : 0 < n) {P : List α → Prop} (short : ∀ s, s.length < n → P s)
    (long : ∀ s, n ≤ s.length → P (s.drop n) → P s) (s : List α) : P s := by
  induction size : s.length using Nat.strongRecOn generalizing s with
  | _ k ih =>
      by_cases filled : n ≤ s.length
      · exact long s filled (ih _ (by rw [List.length_drop]; omega) _ rfl)
      · exact short s (not_le.mp filled)

/-- The blocks of a stream go on where those of its front end. -/
theorem full_append (pos : 0 < n) (s t : List α) :
    full n (s ++ t) = full n s ++ full n (rest n s ++ t) := by
  induction s using stream_induction pos with
  | short s short => rw [full_of_short short, rest_of_short short, List.nil_append]
  | long s long ih =>
      have longer : n ≤ (s ++ t).length := by rw [List.length_append]; omega
      rw [full_of_long pos longer, full_of_long pos long, rest_of_long pos long,
        List.take_append_of_le_length long, List.drop_append_of_le_length long, ih]
      rfl

theorem rest_append (pos : 0 < n) (s t : List α) : rest n (s ++ t) = rest n (rest n s ++ t) := by
  induction s using stream_induction pos with
  | short s short => rw [rest_of_short short]
  | long s long ih =>
      have longer : n ≤ (s ++ t).length := by rw [List.length_append]; omega
      rw [rest_of_long pos longer, rest_of_long pos long, List.drop_append_of_le_length long, ih]

theorem mem_of_full {block : List α} (member : block ∈ full n s) {x : α} (inside : x ∈ block) : x ∈ s := by
  obtain ⟨i, -, rfl⟩ := List.mem_map.mp member
  exact List.mem_of_mem_drop (List.mem_of_mem_take inside)

theorem mem_of_rest {x : α} (inside : x ∈ rest n s) : x ∈ s := List.mem_of_mem_drop inside

/-- The blocks of a reader that starts with `carry` and keeps the last piece only. -/
def forgetful (n : Nat) : List α → List (List α) → List (List α)
  | _, [] => []
  | carry, piece :: later =>
      if carry.length + piece.length < n then forgetful n piece later
      else full n (carry ++ piece) ++ forgetful n (rest n (carry ++ piece)) later

/-- All of the stream in one piece is read as it is. -/
theorem forgetful_whole (n : Nat) (s : List α) : forgetful n [] [s] = full n s := by
  simp only [forgetful, List.length_nil, Nat.zero_add, List.nil_append, List.append_nil]
  split
  · rename_i short
    exact (full_of_short short).symm
  · rfl

theorem forgetful_of_short {pieces : List (List α)} {carry : List α}
    (short : carry.length + pieces.flatten.length < n) : forgetful n carry pieces = [] := by
  induction pieces generalizing carry with
  | nil => rfl
  | cons piece later ih =>
      rw [List.flatten_cons, List.length_append] at short
      rw [forgetful, if_pos (by omega)]
      exact ih (by omega)

/-- What is read was in the stream. -/
theorem mem_of_forgetful {pieces : List (List α)} {carry block : List α} {x : α}
    (member : block ∈ forgetful n carry pieces) (inside : x ∈ block) :
    x ∈ carry ++ pieces.flatten := by
  induction pieces generalizing carry with
  | nil => cases member
  | cons piece later ih =>
      rw [forgetful] at member
      rw [List.flatten_cons]
      split at member
      · exact List.mem_append_right carry (ih member)
      · rw [← List.append_assoc]
        rcases List.mem_append.mp member with here | behind
        · exact List.mem_append_left _ (mem_of_full here inside)
        · rcases List.mem_append.mp (ih behind) with kept | new
          · exact List.mem_append_left _ (mem_of_rest kept)
          · exact List.mem_append_right _ new

/-- A piece that fills a block, or starts with one, is read as if it had come with the stream in
front of it. -/
theorem forgetful_cons (pos : 0 < n) {piece : List α} (later : List (List α))
    (fits : s.length % n ≠ 0 → n ≤ s.length % n + piece.length) :
    full n s ++ forgetful n (rest n s) (piece :: later) =
      full n (s ++ piece) ++ forgetful n (rest n (s ++ piece)) later := by
  rw [forgetful, rest_length, full_append pos s piece, rest_append pos s piece]
  split
  · rename_i short
    have aligned : s.length % n = 0 := by
      by_contra inside
      exact absurd (fits inside) (not_le.mpr short)
    have empty : rest n s = [] := List.length_eq_zero_iff.mp (by rw [rest_length, aligned])
    have shortPiece : piece.length < n := by omega
    rw [empty, List.nil_append, full_of_short shortPiece, rest_of_short shortPiece, List.append_nil]
  · rw [List.append_assoc]

/-! ## Where the pieces end

A reader that looks at the first `c` blocks only cannot tell a forgetful one by the
pieces behind them, nor by a last block that the stream does not fill.
-/

/-- Where the piece at `i` starts in a stream that has `off` samples in front of the pieces. -/
def start (off : Nat) (lens : List Nat) (i : Nat) : Nat := off + (lens.take i).sum

/-- The piece at `i` starts and ends inside one block, one of the first `c` and one that the
stream fills. -/
def Inside (n c off : Nat) (lens : List Nat) (i : Nat) : Prop :=
  start off lens i % n ≠ 0 ∧ start off lens i % n + lens.getD i 0 < n ∧
    start off lens i / n < c ∧ n * (start off lens i / n + 1) ≤ off + lens.sum

instance (n c off : Nat) (lens : List Nat) (i : Nat) : Decidable (Inside n c off lens i) :=
  inferInstanceAs (Decidable (_ ∧ _))

section Pieces

variable {c off len i : Nat} {lens : List Nat}

theorem inside_zero :
    Inside n c off (len :: lens) 0 ↔ off % n ≠ 0 ∧ off % n + len < n ∧ off / n < c ∧
      n * (off / n + 1) ≤ off + (len + lens.sum) := by
  simp [Inside, start]

theorem inside_succ :
    Inside n c off (len :: lens) (i + 1) ↔ Inside n c (off + len) lens i := by
  simp [Inside, start, Nat.add_assoc]

/-- The block that a piece lies in is not in front of the one the pieces start in. -/
theorem Inside.reached (inside : Inside n c off lens i) :
    off / n < c ∧ n * (off / n + 1) ≤ off + lens.sum := by
  obtain ⟨-, -, counted, filled⟩ := inside
  have behind : off / n ≤ start off lens i / n := Nat.div_le_div_right (Nat.le_add_right off _)
  exact ⟨lt_of_le_of_lt behind counted,
    (Nat.mul_le_mul_left n (Nat.succ_le_succ behind)).trans filled⟩

/-- No piece inside a block: nothing is lost. -/
theorem forgetful_same (pos : 0 < n) (pieces : List (List α))
    (apart : ∀ i < pieces.length, ¬Inside n c s.length (pieces.map List.length) i) :
    (full n s ++ forgetful n (rest n s) pieces).take c = (full n (s ++ pieces.flatten)).take c := by
  induction pieces generalizing s with
  | nil => rw [forgetful, List.flatten_nil, List.append_nil, List.append_nil]
  | cons piece later ih =>
      by_cases fits : s.length % n ≠ 0 → n ≤ s.length % n + piece.length
      · rw [forgetful_cons pos later fits, List.flatten_cons, ← List.append_assoc]
        apply ih
        intro i here
        rw [List.length_append, ← inside_succ]
        exact apart (i + 1) (Nat.succ_lt_succ here)
      · obtain ⟨inside, short⟩ := Classical.not_imp.mp fits
        have notHere := apart 0 (Nat.succ_pos _)
        rw [List.map_cons, inside_zero, ← List.length_flatten] at notHere
        by_cases counted : s.length / n < c
        · -- the block is not filled any more
          have unfilled : s.length % n + (piece.length + later.flatten.length) < n := by
            by_contra filled
            have split := Nat.div_add_mod s.length n
            exact notHere ⟨inside, not_le.mp short, counted, by rw [Nat.mul_add]; omega⟩
          rw [full_append pos, full_of_short (s := rest n s ++ _)
              (by rwa [List.length_append, rest_length, List.flatten_cons, List.length_append]),
            forgetful_of_short (by rwa [rest_length, List.flatten_cons, List.length_append])]
        · -- the blocks that count are read already
          have read : c ≤ (full n s).length := by rw [full_length]; exact not_lt.mp counted
          rw [full_append pos, List.take_append_of_le_length read,
            List.take_append_of_le_length read]

/-- A piece inside the block in which the stream stands: the samples in front of it are lost, and
a stream in which they are like no others shows it. -/
theorem lost_here [Nontrivial α] (inside : Inside n c off (len :: lens) 0) :
    ∃ (s : List α) (pieces : List (List α)), s.length = off ∧
      pieces.map List.length = len :: lens ∧
      (full n s ++ forgetful n (rest n s) pieces).take c ≠
        (full n (s ++ pieces.flatten)).take c := by
  obtain ⟨x, y, differ⟩ := exists_pair_ne α
  obtain ⟨inside, short, counted, filled⟩ := inside_zero.mp inside
  have split := Nat.div_add_mod off n
  set front := List.replicate (n * (off / n)) x with quiet
  set s := front ++ y :: List.replicate (off % n - 1) x with stream
  set piece := List.replicate len x
  set later := lens.map fun len => List.replicate len x
  have size : s.length = off := by
    rw [stream, List.length_append, List.length_cons, List.length_replicate, List.length_replicate]
    omega
  have sizes : (piece :: later).map List.length = len :: lens := by
    simp [piece, later, Function.comp_def]
  refine ⟨s, piece :: later, size, sizes, fun same => ?_⟩
  -- the block of the whole stream starts with the odd sample
  have total : (s ++ (piece :: later).flatten).length = off + (len + lens.sum) := by
    rw [List.length_append, size, List.length_flatten, sizes, List.sum_cons]
  have whole : (full n (s ++ (piece :: later).flatten))[off / n]? =
      some (((s ++ (piece :: later).flatten).drop (n * (off / n))).take n) :=
    full_getElem? (by
      rw [total, Nat.lt_iff_add_one_le, Nat.le_div_iff_mul_le (by omega), Nat.mul_comm]
      exact filled)
  have odd : y ∈ ((s ++ (piece :: later).flatten).drop (n * (off / n))).take n := by
    rw [stream, List.append_assoc, List.drop_left' List.length_replicate, List.cons_append,
      List.take_cons (by omega)]
    exact List.mem_cons_self
  -- the forgetful reader takes it from the pieces
  have forgot : forgetful n (rest n s) (piece :: later) = forgetful n piece later := by
    rw [forgetful, rest_length, size, List.length_replicate, if_pos short]
  have read := congrArg (fun blocks => blocks[off / n]?) same
  simp only [forgot, List.getElem?_take, if_pos counted, whole] at read
  rw [List.getElem?_append_right (by rw [full_length, size]), full_length, size, Nat.sub_self] at read
  have among := mem_of_forgetful (List.mem_of_getElem? read) odd
  have only : ∀ z ∈ piece ++ later.flatten, z = x := by
    simp only [piece, later, List.mem_append, List.mem_flatten, List.mem_map]
    rintro z (here | ⟨_, ⟨len, -, rfl⟩, here⟩)
    · exact List.eq_of_mem_replicate here
    · exact List.eq_of_mem_replicate here
  exact differ (only y among).symm

/-- A piece inside a block can be told. -/
theorem exists_lost [Nontrivial α] (pos : 0 < n) (here : i < lens.length)
    (inside : Inside n c off lens i) :
    ∃ (s : List α) (pieces : List (List α)), s.length = off ∧
      pieces.map List.length = lens ∧
      (full n s ++ forgetful n (rest n s) pieces).take c ≠
        (full n (s ++ pieces.flatten)).take c := by
  induction lens generalizing off i with
  | nil => cases here
  | cons len lens ih =>
      by_cases bad : off % n ≠ 0 ∧ off % n + len < n
      · have reached := inside.reached
        rw [List.sum_cons] at reached
        exact lost_here (inside_zero.mpr ⟨bad.1, bad.2, reached⟩)
      · cases i with
        | zero =>
            have first := inside_zero.mp inside
            exact absurd ⟨first.1, first.2.1⟩ bad
        | succ i =>
            obtain ⟨s, later, size, sizes, differ⟩ :=
              ih (Nat.lt_of_succ_lt_succ here) (inside_succ.mp inside)
            have front : (s.take off).length = off := by rw [List.length_take]; omega
            have piece : (s.drop off).length = len := by rw [List.length_drop]; omega
            refine ⟨s.take off, s.drop off :: later, front, by rw [List.map_cons, piece, sizes], ?_⟩
            rw [forgetful_cons pos later (by rw [front, piece]; grind), List.flatten_cons,
              ← List.append_assoc, List.take_append_drop]
            exact differ

/-- The pieces a forgetful reader can be given. -/
theorem forgetful_same_iff [Nontrivial α] (pos : 0 < n) (c : Nat) (lens : List Nat) :
    (∀ pieces : List (List α), pieces.map List.length = lens →
        (forgetful n [] pieces).take c = (full n pieces.flatten).take c) ↔
      ∀ i < lens.length, ¬Inside n c 0 lens i := by
  have emptyFull : full n ([] : List α) = [] := full_of_short pos
  have emptyRest : rest n ([] : List α) = [] := rest_of_short pos
  constructor
  · intro same i here inside
    obtain ⟨s, pieces, size, sizes, differ⟩ := (exists_lost pos here inside : ∃ s : List α, _)
    cases List.length_eq_zero_iff.mp size
    rw [emptyFull, emptyRest] at differ
    exact differ (same pieces sizes)
  · rintro apart pieces rfl
    have same := forgetful_same (s := []) (c := c) pos pieces (by rwa [List.length_map] at apart)
    rwa [emptyFull, emptyRest] at same

end Pieces

end Blocks
