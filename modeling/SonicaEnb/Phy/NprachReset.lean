import SonicaEnb.Phy.Nprach

/-! # The detector between two occasions (`nbiot_phch/nprach.c`)

`sonica_nprach_detect_reset` starts the next occasion: it puts the position in the
symbol groups back, not the number of samples that `fft_in` still holds for the
next block. `nprach_worker::run_tti` calls it after every `sonica_nprach_detect`.
-/

namespace SonicaEnb

open Nprach

/-- What a user of the detector calls. -/
inductive NprachCall (α : Type) where
  | detect (signal : List α)
  | reset

/-- The reads that are transformed and stored. -/
def NprachRead.isSymbol {α β : Type} : NprachRead α β → Bool
  | .cp _ => false
  | .symbol _ _ _ => true

namespace NprachDetector

variable {α β : Type} (shift : List α → List α) (dft : List α → Nat → β)

/-- `sonica_nprach_detect_reset`. -/
def detectReset (q : NprachDetector α β) : NprachDetector α β :=
  { q with nxtSym := 0, curSymg := 0 }

def call (q : NprachDetector α β) :
    NprachCall α → NprachDetector α β × List (NprachRead α β) × Bool
  | .detect signal => detect shift dft q signal
  | .reset => (q.detectReset, [], false)

/-- Any calls, also those behind a complete detection. -/
def calls (q : NprachDetector α β) :
    List (NprachCall α) → NprachDetector α β × List (NprachRead α β)
  | [] => (q, [])
  | next :: later =>
      let (q', reads, _) := call shift dft q next
      let (last, more) := calls q' later
      (last, reads ++ more)

/-- The blocks that `sonica_nprach_detect` transforms for the pieces of a stream, each with its row
of `det_buf`. -/
def symbols (q : NprachDetector α β) (pieces : List (List α)) : List (NprachRead α β) :=
  (calls shift dft q (pieces.map .detect)).2.filter NprachRead.isSymbol

/-- After a reset the detector reads every stream as one does that was just initialised. -/
def ForgetsPast [Zero β] (q : NprachDetector α β) : Prop :=
  ∀ (fftIn : List α) (pieces : List (List α)),
    symbols shift dft q.detectReset pieces = symbols shift dft (init fftIn) pieces

/-- The user resets the detector after each complete detection. -/
def ResetsFinished (q : NprachDetector α β) : List (NprachCall α) → Prop
  | [] => True
  | next :: later =>
      ((call shift dft q next).2.2 = true → ∀ behind ∈ later.head?, behind = .reset) ∧
        ResetsFinished (call shift dft q next).1 later

/-! ## What is in `fft_in` -/

variable {q q' : NprachDetector α β} {k bufOffset : Nat} {carry signal : List α}

/-- The samples that the detector counts are in `fft_in`, and they do not fill a block. -/
structure Stored (q : NprachDetector α β) : Prop where
  size : (q.fftIn.take q.bufSamp).length = q.bufSamp
  short : q.bufSamp < sampSize

theorem stored_init [Zero β] (fftIn : List α) : (init fftIn : NprachDetector α β).Stored :=
  ⟨rfl, sampSize_pos⟩

/-- The loop goes on while the samples fill a block. -/
theorem detectLoop_rem_short (open_ : (detectLoop shift dft q bufOffset signal).finished = false) :
    (detectLoop shift dft q bufOffset signal).rem.length < sampSize := by
  fun_induction detectLoop shift dft q bufOffset signal with
  | case1 => cases open_
  | case2 _ _ _ _ _ _ _ _ _ _ _ ih => exact ih open_
  | case3 _ _ _ _ _ _ _ _ _ ih => exact ih open_
  | case4 _ _ _ filled =>
      dsimp only
      omega

theorem stored_detect (q : NprachDetector α β) (signal : List α) : (detect shift dft q signal).1.Stored := by
  unfold detect
  dsimp only
  split
  · exact ⟨rfl, sampSize_pos⟩
  · rename_i unfinished
    refine ⟨?_, detectLoop_rem_short shift dft (Bool.eq_false_iff.mpr unfinished)⟩
    rw [take_rem]

theorem bufSamp_of_finished (q : NprachDetector α β) (signal : List α)
    (finished : (detect shift dft q signal).2.2 = true) : (detect shift dft q signal).1.bufSamp = 0 := by
  unfold detect at finished ⊢
  dsimp only at finished ⊢
  split
  · rfl
  · rename_i unfinished
    rw [if_neg unfinished] at finished
    cases finished

theorem stored_call (next : NprachCall α) (stored : q.Stored) : (call shift dft q next).1.Stored := by
  cases next with
  | detect signal => exact stored_detect shift dft q signal
  | reset => exact ⟨stored.size, stored.short⟩

theorem stored_calls (history : List (NprachCall α)) (stored : q.Stored) :
    (calls shift dft q history).1.Stored := by
  induction history generalizing q with
  | nil => exact stored
  | cons next later ih => exact ih (stored_call shift dft next stored)

/-- A reset detector is at the first prefix, with the samples it holds as the start of it. -/
theorem keeps_reset (stored : q.Stored) : q.detectReset.Keeps 0 (q.fftIn.take q.bufSamp) :=
  ⟨⟨rfl, rfl⟩, by decide, rfl, stored.size, stored.size.trans_lt stored.short⟩

/-! ## Two detectors -/

/-- The detectors stand at one position and hold the same samples. The rest of `fft_in` and
`det_buf` may differ. -/
structure Alike (q q' : NprachDetector α β) : Prop where
  bufSamp : q.bufSamp = q'.bufSamp
  curSymg : q.curSymg = q'.curSymg
  nxtSym : q.nxtSym = q'.nxtSym
  kept : q.fftIn.take q.bufSamp = q'.fftIn.take q.bufSamp

/-- What two loops over one piece have in common. -/
structure Looped.Alike (out out' : Looped α β) : Prop where
  curSymg : out.q.curSymg = out'.q.curSymg
  nxtSym : out.q.nxtSym = out'.q.nxtSym
  rem : out.rem = out'.rem
  reads : out.reads = out'.reads
  finished : out.finished = out'.finished

theorem Looped.Alike.after {out out' : Looped α β} (alike : out.Alike out') (read : NprachRead α β) :
    (out.after read).Alike (out'.after read) :=
  ⟨alike.curSymg, alike.nxtSym, alike.rem, congrArg (read :: ·) alike.reads, alike.finished⟩

theorem readBlock_alike (cur : q.curSymg = q'.curSymg) (nxt : q.nxtSym = q'.nxtSym)
    (kept : q.fftIn.take bufOffset = q'.fftIn.take bufOffset) {next : NprachDetector α β}
    {read : NprachRead α β} (turn : readBlock shift dft q bufOffset signal = (next, read)) :
    ∃ next', readBlock shift dft q' bufOffset signal = (next', read) ∧
      next.curSymg = next'.curSymg ∧
      signal.drop (q.readAmount bufOffset) = signal.drop (q'.readAmount bufOffset) := by
  rw [readAmount_eq, readAmount_eq]
  unfold readBlock at turn ⊢
  rw [readAmount_eq, cur, nxt, kept] at turn
  rw [readAmount_eq]
  split at turn
  · cases turn
    exact ⟨_, if_pos ‹_›, cur, rfl⟩
  · cases turn
    exact ⟨_, if_neg ‹_›, rfl, rfl⟩

/-- Every turn reads the same, and leaves nothing in `fft_in` that the next one could read. -/
theorem detectLoop_alike (cur : q.curSymg = q'.curSymg) (nxt : q.nxtSym = q'.nxtSym)
    (kept : q.fftIn.take bufOffset = q'.fftIn.take bufOffset) :
    (detectLoop shift dft q bufOffset signal).Alike (detectLoop shift dft q' bufOffset signal) := by
  fun_induction detectLoop shift dft q bufOffset signal generalizing q' with
  | case1 q off signal long next read turn rem lastSym =>
      rename_i lastGroup
      obtain ⟨next', turn', -, sameRem⟩ := readBlock_alike shift dft cur nxt kept turn
      rw [detectLoop.eq_def shift dft q', if_pos long, turn', ← sameRem]
      dsimp only
      rw [if_pos (nxt ▸ lastSym), if_pos (cur ▸ lastGroup)]
      exact ⟨congrArg (· + 1) cur, rfl, rfl, rfl, rfl⟩
  | case2 q off signal long next read turn rem lastSym next'' lastGroup =>
      rename_i ih
      obtain ⟨next', turn', -, sameRem⟩ := readBlock_alike shift dft cur nxt kept turn
      rw [detectLoop.eq_def shift dft q', if_pos long, turn', ← sameRem]
      dsimp only
      rw [if_pos (nxt ▸ lastSym), if_neg (cur ▸ lastGroup)]
      apply Looped.Alike.after
      exact ih (congrArg (· + 1) cur) rfl rfl
  | case3 q off signal long next read turn rem inner =>
      rename_i ih
      obtain ⟨next', turn', sameCur, sameRem⟩ := readBlock_alike shift dft cur nxt kept turn
      rw [detectLoop.eq_def shift dft q', if_pos long, turn', ← sameRem]
      dsimp only
      rw [if_neg (nxt ▸ inner)]
      apply Looped.Alike.after
      exact ih sameCur (congrArg (· + 1) nxt) rfl
  | case4 q off signal short =>
      rw [detectLoop.eq_def shift dft q', if_neg short]
      exact ⟨cur, nxt, rfl, rfl, rfl⟩

theorem detect_alike (alike : q.Alike q') (signal : List α) :
    (detect shift dft q signal).1.Alike (detect shift dft q' signal).1 ∧
      (detect shift dft q signal).2 = (detect shift dft q' signal).2 := by
  have looped : (detectLoop shift dft q q.bufSamp signal).Alike (detectLoop shift dft q' q'.bufSamp signal) := by
    rw [← alike.bufSamp]
    exact detectLoop_alike shift dft alike.curSymg alike.nxtSym alike.kept
  unfold detect
  dsimp only
  rw [← looped.finished]
  split
  · refine ⟨⟨rfl, looped.curSymg, looped.nxtSym, rfl⟩, ?_⟩
    rw [looped.reads]
  · refine ⟨⟨congrArg List.length looped.rem, looped.curSymg, looped.nxtSym, ?_⟩, ?_⟩
    · dsimp only
      rw [take_rem, looped.rem, take_rem]
    · rw [looped.reads]

theorem call_alike (alike : q.Alike q') (next : NprachCall α) :
    (call shift dft q next).1.Alike (call shift dft q' next).1 ∧
      (call shift dft q next).2 = (call shift dft q' next).2 := by
  cases next with
  | detect signal => exact detect_alike shift dft alike signal
  | reset => exact ⟨⟨alike.bufSamp, rfl, rfl, alike.kept⟩, rfl⟩

theorem calls_alike (alike : q.Alike q') (further : List (NprachCall α)) :
    (calls shift dft q further).2 = (calls shift dft q' further).2 := by
  induction further generalizing q q' with
  | nil => rfl
  | cons next later ih =>
      obtain ⟨alike', same⟩ := call_alike shift dft alike next
      rw [calls, calls]
      dsimp only
      rw [ih alike']
      exact congrArg (fun out => out.1 ++ (calls shift dft (call shift dft q' next).1 later).2) same

/-- Nothing of the past is read where no samples are held at the reset. -/
theorem forgetsPast_of_empty [Zero β] (empty : q.bufSamp = 0) : ForgetsPast shift dft q := by
  intro fftIn pieces
  have alike : q.detectReset.Alike (init fftIn : NprachDetector α β) := by
    refine ⟨empty, rfl, rfl, ?_⟩
    change q.fftIn.take q.bufSamp = fftIn.take q.bufSamp
    rw [empty]
    rfl
  rw [symbols, symbols, calls_alike shift dft alike]

/-! ## Samples held at a reset -/

/-- The block behind the first one. -/
def secondBlock (stream : List α) : List α := (stream.drop sampSize).take sampSize

/-- One piece that fills two blocks: the first is the prefix, the second is transformed. -/
theorem symbols_of_two (keeps : q.Keeps 0 carry) (two : (carry ++ signal).length / sampSize = 2) :
    symbols shift dft q [signal] = [readAt shift dft 1 (secondBlock (carry ++ signal))] := by
  have long : sampSize ≤ carry.length + signal.length := by
    rw [← List.length_append]
    unfold sampSize at two ⊢
    omega
  obtain ⟨q', reads, finished, detected, here, -⟩ := detect_long shift dft keeps long
  have blocks : Blocks.full sampSize (carry ++ signal) =
      [(carry ++ signal).take sampSize, secondBlock (carry ++ signal)] := by
    rw [Blocks.full, two]
    rfl
  rw [symbols, List.map_singleton, calls, call, detected]
  dsimp only
  rw [here, blocks]
  rfl

/-- Two blocks, with another sample at the end. -/
def marked (x y : α) : List α := List.replicate 1023 x ++ [y]

theorem marked_length (x y : α) : (marked x y).length = 1024 := by
  rw [marked, List.length_append, List.length_replicate, List.length_singleton]

theorem mem_secondBlock_marked (x y : α) : y ∈ secondBlock ([] ++ marked x y) := by
  have size : ((marked x y).drop sampSize).length ≤ sampSize := by
    rw [List.length_drop, marked_length]
    decide
  rw [List.nil_append, secondBlock, List.take_of_length_le size, marked, sampSize,
    List.drop_append_of_le_length (by rw [List.length_replicate]; decide)]
  exact List.mem_append_right _ (List.mem_singleton_self y)

/-- Behind samples that are held, the last one comes too late for the second block. -/
theorem eq_of_mem_secondBlock {x y : α} (held : 0 < carry.length) (short : carry.length < sampSize)
    (inside : y ∈ secondBlock (carry ++ marked x y)) : y = x := by
  unfold sampSize at short
  rw [secondBlock, marked, ← List.append_assoc, sampSize,
    List.drop_append_of_le_length (by rw [List.length_append, List.length_replicate]; omega),
    List.take_append_of_le_length (by
      rw [List.length_drop, List.length_append, List.length_replicate]; omega),
    List.drop_append, List.drop_eq_nil_of_le short.le, List.nil_append] at inside
  exact List.eq_of_mem_replicate (List.mem_of_mem_drop (List.mem_of_mem_take inside))

/-- A detector that holds samples at the reset reads the stream behind them shifted. -/
theorem symbols_reset_ne [Zero β] (stored : q.Stored) (held : 0 < q.bufSamp) {x y : α} (differ : x ≠ y)
    (fftIn : List α) :
    symbols shift dft q.detectReset [marked x y] ≠ symbols shift dft (init fftIn) [marked x y] := by
  intro same
  have short := stored.short
  unfold sampSize at short
  rw [symbols_of_two shift dft (keeps_reset stored) (by
      rw [List.length_append, stored.size, marked_length, sampSize]; omega),
    symbols_of_two shift dft (keeps_init fftIn) (by rw [List.nil_append, marked_length]; rfl)] at same
  have block := congrArg NprachRead.samples (List.head_eq_of_cons_eq same)
  rw [samples_readAt, samples_readAt] at block
  have inside := mem_secondBlock_marked x y
  rw [← block] at inside
  exact differ.symm (eq_of_mem_secondBlock (held.trans_eq stored.size.symm)
    (stored.size.trans_lt stored.short) inside)

/-! ## The rows of `det_buf` -/

/-- No symbol of the reads is stored behind `det_buf`. -/
def InRows (reads : List (NprachRead α β)) : Prop :=
  ∀ block symNum row, .symbol block symNum row ∈ reads → symNum < 20

theorem inRows_nil : InRows ([] : List (NprachRead α β)) := by
  intro block symNum row member
  cases member

/-- A detector inside the four groups stores inside `det_buf`, and leaves the groups only with the
detection complete. -/
theorem call_keeps (keeps : q.Keeps k carry) (next : NprachCall α) :
    InRows (call shift dft q next).2.1 ∧
      ((call shift dft q next).2.2 = false →
        ∃ k' carry', (call shift dft q next).1.Keeps k' carry') := by
  cases next with
  | reset =>
      refine ⟨inRows_nil, fun _ => ⟨0, carry, ?_⟩⟩
      exact ⟨⟨rfl, rfl⟩, by decide, keeps.kept, keeps.size, keeps.short⟩
  | detect signal =>
      rw [call]
      by_cases short : carry.length + signal.length < sampSize
      · obtain ⟨q', detected, keeps', -⟩ := detect_short shift dft keeps short
        rw [detected]
        exact ⟨inRows_nil, fun _ => ⟨k, signal, keeps'⟩⟩
      · obtain ⟨q', reads, finished, detected, here, -, -, goesOn⟩ :=
          detect_long shift dft keeps (not_lt.mp short)
        rw [detected]
        refine ⟨?_, fun open_ => ⟨_, _, goesOn open_⟩⟩
        intro block symNum row member
        rw [here] at member
        obtain ⟨i, below, samples, same⟩ := mem_readsFrom shift dft member
        exact (readAt_row shift dft below same).1

/-- The detector is inside the four groups, or the next call puts it back there. -/
theorem calls_inRows {history : List (NprachCall α)} (stored : q.Stored)
    (entry : (∃ k carry, q.Keeps k carry) ∨ ∀ next ∈ history.head?, next = .reset)
    (resets : ResetsFinished shift dft q history) : InRows (calls shift dft q history).2 := by
  induction history generalizing q with
  | nil => exact inRows_nil
  | cons next later ih =>
      obtain ⟨here, behind⟩ := resets
      have stored' := stored_call shift dft next stored
      intro block symNum row member
      rcases entry with ⟨k, carry, keeps⟩ | reset
      · obtain ⟨inRows, goesOn⟩ := call_keeps shift dft keeps next
        have entry' : (∃ k' carry', (call shift dft q next).1.Keeps k' carry') ∨
            ∀ next' ∈ later.head?, next' = .reset := by
          cases finished : (call shift dft q next).2.2 with
          | false => exact .inl (goesOn finished)
          | true => exact .inr (here finished)
        rcases List.mem_append.mp member with now | then_
        · exact inRows block symNum row now
        · exact ih stored' entry' behind block symNum row then_
      · cases reset next rfl
        exact ih stored' (.inl ⟨0, _, keeps_reset stored⟩) behind block symNum row member

/-- Whatever was called before, a reset detector reads every stream as a new one if and only if no
samples were held at the reset. Where every complete detection is followed by a reset, no symbol is
stored behind `det_buf`. -/
theorem detectReset_forgets_iff [Nontrivial α] [Zero β] (fftIn : List α)
    (history : List (NprachCall α)) :
    (ForgetsPast shift dft (calls shift dft (init fftIn : NprachDetector α β) history).1 ↔
        (calls shift dft (init fftIn : NprachDetector α β) history).1.bufSamp = 0) ∧
      (ResetsFinished shift dft (init fftIn : NprachDetector α β) history →
        InRows (calls shift dft (init fftIn : NprachDetector α β) history).2) := by
  have stored : (init fftIn : NprachDetector α β).Stored := stored_init fftIn
  constructor
  · constructor
    · intro forgets
      obtain ⟨x, y, differ⟩ := exists_pair_ne α
      by_contra held
      exact symbols_reset_ne shift dft (stored_calls shift dft history stored) (Nat.pos_of_ne_zero held)
        differ [] (forgets [] [marked x y])
    · exact forgetsPast_of_empty shift dft
  · intro resets
    exact calls_inRows shift dft stored (.inl ⟨0, [], keeps_init fftIn⟩) resets

/-- A transform that can be computed. -/
def pick (block : List Int) (sc : Nat) : Int := block.getD sc 0

theorem short_piece_held :
    (calls id pick (init (List.replicate sampSize 0)) [.detect (List.replicate 100 1)]).1.bufSamp = 100 := by
  have short : ([] : List Int).length + (List.replicate 100 (1 : Int)).length < sampSize := by decide
  obtain ⟨q', detected, keeps, -⟩ :=
    detect_short id pick (keeps_init (List.replicate sampSize (0 : Int))) short
  rw [calls, call, detected]
  exact keeps.size.symm

/-- A complete detection and its reset, then a piece that fills no block. -/
def finishedThenShort (whole short : List α) : List (NprachCall α) := [.detect whole, .reset, .detect short]

theorem finishedThenShort_resets [Zero β] (fftIn whole short : List α) :
    ResetsFinished shift dft (init fftIn : NprachDetector α β) (finishedThenShort whole short) :=
  ⟨fun _ _ behind => (Option.some.inj behind).symm, nofun, fun _ _ => nofun, trivial⟩

theorem calls_finishedThenShort [Zero β] (fftIn : List α) {whole short : List α}
    (fills : 24 ≤ whole.length / sampSize) (few : short.length < sampSize) :
    (calls shift dft (init fftIn : NprachDetector α β) (finishedThenShort whole short)).1.bufSamp = short.length ∧
      ∃ block row, .symbol block 19 row ∈
        (calls shift dft (init fftIn : NprachDetector α β) (finishedThenShort whole short)).2 := by
  have long : sampSize ≤ ([] : List α).length + whole.length := by
    unfold sampSize at fills ⊢
    rw [List.length_nil]
    omega
  obtain ⟨q, reads, finished, detected, here, -, complete, -⟩ := detect_long shift dft (keeps_init fftIn) long
  rw [List.nil_append, Nat.zero_add, decide_eq_true fills] at complete
  subst complete
  have stored := stored_detect shift dft (init fftIn : NprachDetector α β) whole
  have empty := bufSamp_of_finished shift dft (init fftIn : NprachDetector α β) whole (by rw [detected])
  rw [detected] at stored empty
  have few' : (q.fftIn.take q.bufSamp).length + short.length < sampSize := by
    rw [stored.size, empty, Nat.zero_add]
    exact few
  obtain ⟨q', detected', keeps, -⟩ := detect_short shift dft (keeps_reset stored) few'
  simp only [finishedThenShort, calls, call, detected, detected', List.append_nil]
  refine ⟨keeps.size.symm, ?_⟩
  rw [here, List.nil_append]
  exact reads_settle shift dft (by rwa [Blocks.full_length]) (by decide)

/-- After a complete detection, whose last symbol has the last row, the detector holds 100 samples at the next
reset. -/
theorem hundred_samples_held :
    let out := calls id pick (init (List.replicate sampSize 0))
      (finishedThenShort (List.replicate 12288 1) (List.replicate 100 1))
    ¬ForgetsPast id pick out.1 ∧ (∃ block row, .symbol block 19 row ∈ out.2) ∧ InRows out.2 := by
  obtain ⟨forgets, inRows⟩ := detectReset_forgets_iff id pick (List.replicate sampSize (0 : Int))
    (finishedThenShort (List.replicate 12288 1) (List.replicate 100 1))
  have fills : 24 ≤ (List.replicate 12288 (1 : Int)).length / sampSize := by
    rw [List.length_replicate]
    decide
  obtain ⟨held, last⟩ := calls_finishedThenShort id pick (List.replicate sampSize (0 : Int)) fills
    (show (List.replicate 100 (1 : Int)).length < sampSize by rw [List.length_replicate]; decide)
  rw [held, List.length_replicate] at forgets
  exact ⟨fun forgot => absurd (forgets.mp forgot) (by decide), last,
    inRows (finishedThenShort_resets id pick _ _ _)⟩

/-- The 100 samples stand in front of the next occasion. -/
theorem next_occasion_shifted :
    symbols id pick
        (calls id pick (init (List.replicate sampSize 0)) [.detect (List.replicate 100 1)]).1.detectReset
        [marked 0 1] ≠
      symbols id pick (init (List.replicate sampSize 0)) [marked 0 1] := by
  apply symbols_reset_ne
  · exact stored_calls id pick _ (stored_init _)
  · rw [short_piece_held]
    decide
  · decide

end NprachDetector

end SonicaEnb
