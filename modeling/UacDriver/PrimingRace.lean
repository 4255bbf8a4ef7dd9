import UacDriver.MetaFifoRace
import UacDriver.PacketPlan
import UacDriver.StartupPrime
import UacDriver.ImplicitStart

/-!
# Priming the initial packets while capture runs

The implicit-feedback loop of `startIsoPump` sizes one initial packet after the other from the layout FIFO, while
`onCapture` pushes into it. `PrimingRace` adds the loop over the packets to the race of `MetaFifoRace`: the priming
thread begins a pop for each packet, goes on with its stale index behind an entry of no frames, and gives up when it
finds the FIFO empty. What bounds the loop is a potential: an exchange that succeeds uses up an entry, and one that
fails has been preceded by such an exchange, by an overflow or by a spurious failure.
-/

namespace UacDriver

open Runs

/-- The priming loop is running, has found no metadata left, or has sized every initial packet. -/
inductive PrimeOutcome where
  | running
  | exhausted
  | primed
  deriving DecidableEq

def PopPc.isIdle : PopPc → Bool
  | .idle => true
  | _ => false

/-- The pop under way is one for a packet. -/
def PopPc.Primes (maxFrames : Nat) : PopPc → Prop
  | .idle => True
  | .haveRead op _ => op = .prime maxFrames
  | .slots op _ _ => op = .prime maxFrames

structure PrimingRace where
  race : FifoRace
  /-- The frames of the packets sized so far, in transfer order. -/
  frames : List Nat := []
  outcome : PrimeOutcome := .running

inductive PrimingAct where
  | beginPush (v : Nat)
  | pusher (spurious : Bool)
  /-- The next shared access of `startIsoPump`. -/
  | primer (spurious : Bool)

namespace PrimingRace

/-- One shared access of the loop over `total` packets. -/
def stepPrimer (maxFrames total : Nat) (s : PrimingRace) (spurious : Bool) : PrimingRace :=
  match s.outcome with
  | .running =>
    match s.race.pop with
    | .idle =>
      if s.frames.length < total then { s with race := s.race.step (.beginPop (.prime maxFrames)) }
      else { s with outcome := .primed }
    | .haveRead op read =>
      { s with
        race := s.race.stepPopper spurious
        outcome := if op.exhausted read s.race.fifo.implicitWrite then .exhausted else .running }
    | .slots _ _ vals =>
      -- back in `idle`, the entry has been taken and the packet's length is stored
      let race := s.race.stepPopper spurious
      { s with race, frames := if race.pop.isIdle then s.frames ++ [min (vals.headD 0) maxFrames] else s.frames }
  | _ => s

def step (maxFrames total : Nat) (s : PrimingRace) : PrimingAct → PrimingRace
  | .beginPush v => { s with race := s.race.step (.beginPush v) }
  | .pusher spurious => { s with race := s.race.stepPusher spurious }
  | .primer spurious => s.stepPrimer maxFrames total spurious

/-- The layout FIFO as a session start resets it, before the first capture packet. -/
def start (slots : Nat → Nat) : PrimingRace := { race := FifoRace.start slots }

/-- The descriptor lengths of the initial packets, in transfer order. -/
def lengths (s : PrimingRace) (stride : Nat) : List Nat := s.frames.map (· * stride)

end PrimingRace

/-! ### What one access does -/

namespace FifoRace

variable {s : FifoRace}

@[simp] theorem stepPusher_pop (spurious : Bool) : (s.stepPusher spurious).pop = s.pop := by
  unfold stepPusher
  split <;> try rfl
  split <;> try split
  all_goals rfl

@[simp] theorem stepPusher_popped (spurious : Bool) : (s.stepPusher spurious).popped = s.popped := by
  unfold stepPusher
  split <;> try rfl
  split <;> try split
  all_goals rfl

@[simp] theorem beginPush_pop (v : Nat) : (s.step (.beginPush v)).pop = s.pop := by
  simp only [step]
  split <;> rfl

@[simp] theorem beginPush_popped (v : Nat) : (s.step (.beginPush v)).popped = s.popped := by
  simp only [step]
  split <;> rfl

theorem stepPopper_haveRead {op : PopOp} {read : Nat} (h : s.pop = .haveRead op read) (spurious : Bool) :
    s.stepPopper spurious =
      { s with pop := if op.exhausted read s.fifo.implicitWrite then .idle else .slots op read [] } := by
  simp only [stepPopper, h]
  split <;> rfl

/-- An access in the middle of a priming pop: the load of the slot, the exchange, or its failure. -/
theorem stepPopper_prime {maxFrames read : Nat} {vals : List Nat} (h : s.pop = .slots (.prime maxFrames) read vals)
    (hlen : vals.length ≤ 1) (spurious : Bool) :
    vals = [] ∧ s.stepPopper spurious = { s with pop := .slots (.prime maxFrames) read [s.fifo.entry read] } ∨
    ∃ v, vals = [v] ∧
      ((spurious = false ∧ s.fifo.implicitRead = read ∧ s.stepPopper spurious =
          { s with
            fifo := { s.fifo with implicitRead := read + 1 }, popped := s.popped ++ [(v, read)]
            pop := if min v maxFrames = 0 then .haveRead (.prime maxFrames) read else .idle }) ∨
        ((spurious = true ∨ s.fifo.implicitRead ≠ read) ∧ s.stepPopper spurious =
          { s with pop := .haveRead (.prime maxFrames) s.fifo.implicitRead })) := by
  rcases vals with - | ⟨v, vals⟩
  · left
    refine ⟨rfl, ?_⟩
    simp [stepPopper, h, PopOp.count]
  · obtain rfl : vals = [] := List.eq_nil_of_length_eq_zero (by simpa using hlen)
    right
    refine ⟨v, rfl, ?_⟩
    by_cases hcas : spurious = false ∧ s.fifo.implicitRead = read
    · obtain ⟨rfl, rfl⟩ := hcas
      left
      refine ⟨rfl, rfl, ?_⟩
      simp [stepPopper, h, PopOp.count, PopOp.afterPop]
    · right
      refine ⟨?_, ?_⟩
      · cases spurious
        · exact .inr fun he => hcas ⟨rfl, he⟩
        · exact .inl rfl
      · simp only [stepPopper, h]
        rw [if_neg (by simp [PopOp.count]), if_neg]
        simpa using hcas

end FifoRace

namespace PrimingRace

variable {maxFrames total : Nat} {s s' : PrimingRace} {spurious : Bool}

/-- What one shared access of the priming thread can do. -/
inductive PrimerStep (maxFrames total : Nat) (s : PrimingRace) (spurious : Bool) : PrimingRace → Prop
  /-- The next packet: its `read` is loaded. -/
  | begin_ (hpop : s.race.pop = .idle) (hlt : s.frames.length < total) :
    PrimerStep maxFrames total s spurious
      { s with race := { s.race with pop := .haveRead (.prime maxFrames) s.race.fifo.implicitRead } }
  | done (hpop : s.race.pop = .idle) (hge : total ≤ s.frames.length) :
    PrimerStep maxFrames total s spurious { s with outcome := .primed }
  | exhausted (hpop : s.race.pop = .haveRead (.prime maxFrames) s.race.fifo.implicitWrite) :
    PrimerStep maxFrames total s spurious { s with race := { s.race with pop := .idle }, outcome := .exhausted }
  | look {read : Nat} (hpop : s.race.pop = .haveRead (.prime maxFrames) read) (hne : read ≠ s.race.fifo.implicitWrite) :
    PrimerStep maxFrames total s spurious { s with race := { s.race with pop := .slots (.prime maxFrames) read [] } }
  | load {read : Nat} (hpop : s.race.pop = .slots (.prime maxFrames) read []) :
    PrimerStep maxFrames total s spurious
      { s with race := { s.race with pop := .slots (.prime maxFrames) read [s.race.fifo.entry read] } }
  /-- An entry of no frames is consumed; the loop goes on with the index it has just given up. -/
  | skip {v : Nat} (hpop : s.race.pop = .slots (.prime maxFrames) s.race.fifo.implicitRead [v])
      (hzero : min v maxFrames = 0) :
    PrimerStep maxFrames total s spurious
      { s with race := { s.race with
          fifo := { s.race.fifo with implicitRead := s.race.fifo.implicitRead + 1 }
          popped := s.race.popped ++ [(v, s.race.fifo.implicitRead)]
          pop := .haveRead (.prime maxFrames) s.race.fifo.implicitRead } }
  | take {v : Nat} (hpop : s.race.pop = .slots (.prime maxFrames) s.race.fifo.implicitRead [v])
      (hpos : 0 < min v maxFrames) :
    PrimerStep maxFrames total s spurious
      { s with
        race := { s.race with
          fifo := { s.race.fifo with implicitRead := s.race.fifo.implicitRead + 1 }
          popped := s.race.popped ++ [(v, s.race.fifo.implicitRead)], pop := .idle }
        frames := s.frames ++ [min v maxFrames] }
  | retry {read v : Nat} (hpop : s.race.pop = .slots (.prime maxFrames) read [v])
      (hfail : spurious = true ∨ s.race.fifo.implicitRead ≠ read) :
    PrimerStep maxFrames total s spurious
      { s with race := { s.race with pop := .haveRead (.prime maxFrames) s.race.fifo.implicitRead } }

/-- The frames written are those of the popped entries, but for the entries of no frames. -/
structure Inv (maxFrames total : Nat) (s : PrimingRace) : Prop where
  race : s.race.Inv
  frames : s.frames = (s.race.popped.map fun e => min e.1 maxFrames).filter (0 < ·)
  pop : s.race.pop.Primes maxFrames
  busy : s.race.pop.isIdle = false → s.frames.length < total
  le : s.frames.length ≤ total
  popped : s.race.popped = [] ∨ 0 < total
  primed : s.outcome = .primed → s.frames.length = total

theorem stepPrimer_spec (h : s.Inv maxFrames total) (hrun : s.outcome = .running) (spurious : Bool) :
    PrimerStep maxFrames total s spurious (s.stepPrimer maxFrames total spurious) := by
  have hpop := h.pop
  have hok := h.race.pop
  simp only [stepPrimer, hrun]
  cases hpc : s.race.pop with
  | idle =>
    dsimp only
    split
    · rename_i hlt
      have hbegin : s.race.step (.beginPop (.prime maxFrames)) =
          { s.race with pop := .haveRead (.prime maxFrames) s.race.fifo.implicitRead } := by
        simp only [FifoRace.step, hpc]
      rw [hbegin, ← hrun]
      exact .begin_ hpc hlt
    · rename_i hge
      exact .done hpc (Nat.le_of_not_lt hge)
  | haveRead op read =>
    rw [hpc] at hpop
    obtain rfl : op = .prime maxFrames := hpop
    dsimp only
    rw [FifoRace.stepPopper_haveRead hpc]
    by_cases hex : (PopOp.prime maxFrames).exhausted read s.race.fifo.implicitWrite = true
    · rw [if_pos hex, if_pos hex]
      obtain rfl : read = s.race.fifo.implicitWrite := by simpa [PopOp.exhausted] using hex
      exact .exhausted hpc
    · rw [if_neg hex, if_neg hex, ← hrun]
      exact .look hpc (by simpa [PopOp.exhausted] using hex)
  | slots op read vals =>
    rw [hpc] at hpop hok
    obtain rfl : op = .prime maxFrames := hpop
    dsimp only
    rcases FifoRace.stepPopper_prime hpc hok.2.2.1 spurious with
      ⟨rfl, he⟩ | ⟨v, rfl, ⟨-, rfl, he⟩ | ⟨hfail, he⟩⟩
    · rw [he, ← hrun]
      exact .load hpc
    · rw [he, ← hrun]
      by_cases hv : min v maxFrames = 0
      · simp only [hv, if_true, PopPc.isIdle, Bool.false_eq_true, if_false]
        exact .skip hpc hv
      · simp only [hv, if_false, PopPc.isIdle, if_true, List.headD_cons]
        exact .take hpc (Nat.pos_of_ne_zero hv)
    · rw [he, ← hrun]
      exact .retry hpc hfail

/-! ### The invariant -/

theorem Inv.start (slots : Nat → Nat) : (start slots).Inv maxFrames total :=
  ⟨.start slots, rfl, trivial, nofun, Nat.zero_le _, .inl rfl, nofun⟩

theorem stepPrimer_of_ne (h : s.outcome ≠ .running) : s.stepPrimer maxFrames total spurious = s := by
  unfold stepPrimer
  split
  · exact absurd ‹_› h
  · rfl

theorem stepPrimer_race (spurious : Bool) :
    (s.stepPrimer maxFrames total spurious).race = s.race ∨
      ∃ a, (s.stepPrimer maxFrames total spurious).race = s.race.step a := by
  unfold stepPrimer
  split
  · split
    · split
      · exact .inr ⟨.beginPop (.prime maxFrames), rfl⟩
      · exact .inl rfl
    · exact .inr ⟨.popper spurious, rfl⟩
    · exact .inr ⟨.popper spurious, rfl⟩
  · exact .inl rfl

/-- The frames of one more popped entry. -/
theorem frames_append (popped : List (Nat × Nat)) (v i : Nat) :
    ((popped ++ [(v, i)]).map fun e => min e.1 maxFrames).filter (0 < ·) =
      (popped.map fun e => min e.1 maxFrames).filter (0 < ·) ++ if 0 < min v maxFrames then [min v maxFrames] else [] := by
  rw [List.map_append, List.filter_append, List.map_singleton, List.filter_singleton]
  simp

theorem Inv.primer (h : s.Inv maxFrames total) (spurious : Bool) :
    (s.stepPrimer maxFrames total spurious).Inv maxFrames total := by
  by_cases hrun : s.outcome = .running
  · have hrace : (s.stepPrimer maxFrames total spurious).race.Inv := by
      rcases stepPrimer_race (s := s) spurious with he | ⟨a, he⟩
      · exact he ▸ h.race
      · exact he ▸ h.race.step a
    have hspec := stepPrimer_spec h hrun spurious
    generalize s.stepPrimer maxFrames total spurious = s' at hrace hspec
    have hnot : s.outcome ≠ .primed := by
      rw [hrun]
      exact nofun
    cases hspec with
    | begin_ hpop hlt => exact ⟨hrace, h.frames, rfl, fun _ => hlt, h.le, h.popped, h.primed⟩
    | done hpop hge => exact ⟨hrace, h.frames, h.pop, h.busy, h.le, h.popped, fun _ => Nat.le_antisymm h.le hge⟩
    | exhausted hpop => exact ⟨hrace, h.frames, trivial, nofun, h.le, h.popped, nofun⟩
    | look hpop hne => exact ⟨hrace, h.frames, rfl, fun _ => h.busy (by rw [hpop]; rfl), h.le, h.popped, h.primed⟩
    | load hpop => exact ⟨hrace, h.frames, rfl, fun _ => h.busy (by rw [hpop]; rfl), h.le, h.popped, h.primed⟩
    | skip hpop hzero =>
      have hlt := h.busy (by rw [hpop]; rfl)
      refine ⟨hrace, ?_, rfl, fun _ => hlt, h.le, .inr (by omega), h.primed⟩
      rw [frames_append, if_neg (by omega), List.append_nil]
      exact h.frames
    | take hpop hpos =>
      have hlt := h.busy (by rw [hpop]; rfl)
      refine ⟨hrace, ?_, trivial, nofun, ?_, .inr (by omega), fun he => absurd he hnot⟩
      · rw [frames_append, if_pos hpos, h.frames]
      · rw [List.length_append, List.length_singleton]
        exact hlt
    | retry hpop hfail =>
      exact ⟨hrace, h.frames, rfl, fun _ => h.busy (by rw [hpop]; rfl), h.le, h.popped, h.primed⟩
  · rw [stepPrimer_of_ne hrun]
    exact h

/-- An access of the event thread leaves the priming loop where it is. -/
theorem Inv.event (h : s.Inv maxFrames total) {race : FifoRace} (hrace : race.Inv) (hpop : race.pop = s.race.pop)
    (hpopped : race.popped = s.race.popped) : Inv maxFrames total { s with race } := by
  refine ⟨hrace, ?_, ?_, ?_, h.le, ?_, h.primed⟩
  · rw [hpopped]
    exact h.frames
  · rw [hpop]
    exact h.pop
  · rw [hpop]
    exact h.busy
  · rw [hpopped]
    exact h.popped

theorem Inv.step (h : s.Inv maxFrames total) (a : PrimingAct) : (s.step maxFrames total a).Inv maxFrames total := by
  cases a with
  | beginPush v => exact h.event (h.race.step (.beginPush v)) (FifoRace.beginPush_pop v) (FifoRace.beginPush_popped v)
  | pusher spurious =>
    exact h.event (h.race.pusher spurious) (FifoRace.stepPusher_pop spurious) (FifoRace.stepPusher_popped spurious)
  | primer spurious => exact h.primer spurious

theorem Inv.run (slots : Nat → Nat) (as : List PrimingAct) :
    (Runs.run (PrimingRace.step maxFrames total) (PrimingRace.start slots) as).Inv maxFrames total :=
  run_invariant (fun _ a hs => hs.step a) (.start slots) as

/-! ### Progress -/

/-- The accesses left of a pop, `n` packets being sized: a stale `read` costs one failing exchange more. -/
def popLeft (total n implicitRead : Nat) : PopPc → Nat
  | .idle => 5 * (total - n) + 1
  | .haveRead _ read => 5 * (total - n - 1) + 1 + if read = implicitRead then 3 else 6
  | .slots _ read vals => 5 * (total - n - 1) + 1 + (if read = implicitRead then 2 else 5) - vals.length

def pushLeft : PushPc → Nat
  | .idle => 0
  | _ => 8

/-- The priming accesses that can still come: eight for each entry that is there or under way, for one is taken by at
most four accesses and leaves a stale `read` behind. -/
def potential (total : Nat) (s : PrimingRace) : Nat :=
  8 * (s.race.fifo.implicitWrite - s.race.fifo.implicitRead) + pushLeft s.race.push +
    popLeft total s.frames.length s.race.fifo.implicitRead s.race.pop

def cost : PrimingAct → Nat
  | .primer false => 1
  | _ => 0

/-- What an action may add: a push the accesses for its entry, a spurious failure those for one more attempt. -/
def grant : PrimingAct → Nat
  | .beginPush _ => 8
  | .primer true => 2
  | _ => 0

theorem popLeft_pos (total n implicitRead : Nat) (pc : PopPc) (h : pc.Primes maxFrames)
    (hlen : ∀ op read vals, pc = .slots op read vals → vals.length ≤ op.count) : 0 < popLeft total n implicitRead pc := by
  cases pc with
  | idle => exact Nat.succ_pos _
  | haveRead op read =>
    simp only [popLeft]
    omega
  | slots op read vals =>
    have hop : op = .prime maxFrames := h
    have hvals := hlen op read vals rfl
    rw [hop] at hvals
    simp only [PopOp.count] at hvals
    simp only [popLeft]
    split <;> omega

/-- The read cursor moves on under a pop: its `read` is stale then. -/
theorem popLeft_moved (total n implicitRead implicitRead' : Nat) (pc : PopPc) :
    popLeft total n implicitRead' pc ≤ popLeft total n implicitRead pc + 3 := by
  cases pc with
  | idle => exact Nat.le_add_right _ _
  | haveRead op read =>
    simp only [popLeft]
    split <;> split <;> omega
  | slots op read vals =>
    simp only [popLeft]
    split <;> split <;> omega

theorem primer_potential (h : s.Inv maxFrames total) (spurious : Bool)
    (hrun : (s.stepPrimer maxFrames total spurious).outcome = .running) :
    (s.stepPrimer maxFrames total spurious).potential total + cost (.primer spurious) ≤
      s.potential total + grant (.primer spurious) := by
  have hs : s.outcome = .running := by
    by_contra hne
    rw [stepPrimer_of_ne hne] at hrun
    exact hne hrun
  have hspec := stepPrimer_spec h hs spurious
  have hok := h.race.pop
  have hcost : cost (.primer spurious) ≤ 1 := by cases spurious <;> decide
  generalize s.stepPrimer maxFrames total spurious = s' at hrun hspec
  cases hspec with
  | begin_ hpop hlt =>
    simp only [potential, hpop, popLeft, if_true]
    omega
  | done => cases hrun
  | exhausted => cases hrun
  | look hpop hne =>
    simp only [potential, hpop, popLeft, List.length_nil]
    split <;> omega
  | load hpop =>
    simp only [potential, hpop, popLeft, List.length_nil, List.length_singleton]
    split <;> omega
  | skip hpop hzero =>
    rw [hpop] at hok
    have hfit : s.race.fifo.implicitRead + 1 ≤ s.race.fifo.implicitWrite := hok.2.1
    simp only [potential, hpop, popLeft, List.length_singleton, if_true]
    rw [if_neg (by omega)]
    omega
  | take hpop hpos =>
    rw [hpop] at hok
    have hfit : s.race.fifo.implicitRead + 1 ≤ s.race.fifo.implicitWrite := hok.2.1
    simp only [potential, hpop, popLeft, List.length_singleton, List.length_append, if_true]
    omega
  | retry hpop hfail =>
    simp only [potential, hpop, popLeft, List.length_singleton, if_true]
    rcases hfail with rfl | hne
    · simp only [cost, grant]
      split <;> omega
    · rw [if_neg (Ne.symm hne)]
      omega

theorem pusher_potential (h : s.race.Inv) (spurious : Bool) :
    potential total { s with race := s.race.stepPusher spurious } ≤ s.potential total := by
  have hpush := h.push
  simp only [potential, FifoRace.stepPusher]
  cases hpc : s.race.push with
  | idle =>
    rw [hpc]
  | haveWrite v write => exact Nat.le_refl _
  | loop v write read =>
    rw [hpc] at hpush
    obtain ⟨rfl, -⟩ := hpush
    dsimp only
    by_cases hfull : s.race.fifo.implicitWrite - read ≥ kImplicitFifoCapacity
    · by_cases hcas : !spurious ∧ s.race.fifo.implicitRead = read
      · -- everything between the cursors is dropped, which pays for a stale `read`
        obtain ⟨-, rfl⟩ := id hcas
        have hmoved := popLeft_moved total s.frames.length s.race.fifo.implicitRead s.race.fifo.implicitWrite s.race.pop
        rw [if_pos hfull, if_pos hcas]
        simp only [pushLeft]
        simp only [kImplicitFifoCapacity] at hfull
        omega
      · rw [if_pos hfull, if_neg hcas]
        exact Nat.le_refl _
    · rw [if_neg hfull]
      exact Nat.le_refl _
  | overran v write => exact Nat.le_refl _
  | store v write => exact Nat.le_refl _
  | publish v write =>
    rw [hpc] at hpush
    obtain ⟨rfl, -, -⟩ := hpush
    simp only [pushLeft]
    omega

theorem step_potential (h : s.Inv maxFrames total) (a : PrimingAct) (hrun : (s.step maxFrames total a).outcome = .running) :
    (s.step maxFrames total a).potential total + cost a ≤ s.potential total + grant a := by
  cases a with
  | beginPush v =>
    have hfifo : (s.race.step (.beginPush v)).fifo = s.race.fifo := by
      simp only [FifoRace.step]
      split <;> rfl
    have hpush : pushLeft (s.race.step (.beginPush v)).push ≤ 8 := by
      cases (s.race.step (.beginPush v)).push <;> simp only [pushLeft, Nat.zero_le, Nat.le_refl]
    simp only [step, potential, hfifo, FifoRace.beginPush_pop, cost, grant]
    omega
  | pusher spurious => exact pusher_potential h.race spurious
  | primer spurious => exact primer_potential h spurious hrun

/-- A loop that is still running has been granted every access it has made. -/
theorem run_accesses (slots : Nat → Nat) (as : List PrimingAct)
    (hrun : (run (step maxFrames total) (start slots) as).outcome = .running) :
    (as.map cost).sum ≤ 5 * total + (as.map grant).sum := by
  have hinv : (run (step maxFrames total) (start slots) as).Inv maxFrames total := .run slots as
  have hkeep (s : PrimingRace) (a : PrimingAct) (h : (s.step maxFrames total a).outcome = .running) :
      s.outcome = .running := by
    cases a with
    | beginPush v => exact h
    | pusher spurious => exact h
    | primer spurious =>
      by_contra hne
      rw [step, stepPrimer_of_ne hne] at h
      exact hne h
  have hpot := run_potential (I := Inv maxFrames total) (Q := fun s => s.outcome = .running) (φ := potential total)
    (fun _ a hs => hs.step a) hkeep (fun _ a hs h => step_potential hs a h) (.start slots) hrun
  have hpos : 0 < (run (step maxFrames total) (start slots) as).potential total := by
    have hleft := popLeft_pos total (run (step maxFrames total) (start slots) as).frames.length
      (run (step maxFrames total) (start slots) as).race.fifo.implicitRead _ hinv.pop
      (fun op read vals he => by
        have hok := hinv.race.pop
        rw [he] at hok
        exact hok.2.2.1)
    simp only [potential]
    omega
  have hstart : potential total (start slots) = 5 * total + 1 := by
    simp only [potential, start, FifoRace.start, pushLeft, popLeft, List.length_nil, Nat.sub_zero]
    omega
  omega

/-- The entries that have sized a packet. -/
def taken (s : PrimingRace) (maxFrames : Nat) : List (Nat × Nat) := s.race.popped.filter fun e => 0 < min e.1 maxFrames

theorem Inv.frames_taken (h : s.Inv maxFrames total) : s.frames = (s.taken maxFrames).map fun e => min e.1 maxFrames := by
  rw [h.frames, taken, List.filter_map]
  rfl

/-- Once packets have been sized, the only entries passed over are those of no frames. -/
theorem Inv.zero_of_not_taken (h : s.Inv maxFrames total) (hprimed : s.outcome = .primed) {v i : Nat}
    (hmem : (v, i) ∈ s.race.popped) (hnot : (v, i) ∉ s.taken maxFrames) : v = 0 := by
  have hmin : min v maxFrames = 0 := by
    by_contra hne
    exact hnot (List.mem_filter.2 ⟨hmem, by simp; omega⟩)
  have htotal : 0 < total := h.popped.resolve_left fun he => by
    rw [he] at hmem
    exact absurd hmem List.not_mem_nil
  have hlen := h.primed hprimed
  rw [h.frames_taken, List.length_map] at hlen
  obtain ⟨e, he⟩ := List.exists_mem_of_length_pos (hlen ▸ htotal)
  have hpos := (List.mem_filter.1 he).2
  simp only [decide_eq_true_eq] at hpos
  omega

end PrimingRace

/-! ### Without interruption -/

namespace PrimingRace

/-- The priming loop for one packet that nothing interrupts is `MetaFifo.primePacket`. -/
theorem run_primePacket (maxFrames total n : Nat) {s : PrimingRace} (hrun : s.outcome = .running)
    (hpop : s.race.pop = .haveRead (.prime maxFrames) s.race.fifo.implicitRead)
    (hn : s.race.fifo.implicitWrite = s.race.fifo.implicitRead + n) :
    ∃ k popped, run (step maxFrames total) s (List.replicate k (.primer false)) =
      match s.race.fifo.primePacket maxFrames n with
      | some (frames, fifo) =>
        { s with race := { s.race with fifo, pop := .idle, popped }, frames := s.frames ++ [frames] }
      | none =>
        { s with
          race := { s.race with fifo := s.race.fifo.take n, pop := .idle, popped }, outcome := .exhausted } := by
  induction n generalizing s with
  | zero =>
    refine ⟨1, s.race.popped, ?_⟩
    have hempty : (PopOp.prime maxFrames).exhausted s.race.fifo.implicitRead s.race.fifo.implicitWrite = true := by
      simp [PopOp.exhausted, hn]
    rw [List.replicate_one, run_cons, run_nil]
    simp [step, stepPrimer, hrun, hpop, hempty, FifoRace.stepPopper, MetaFifo.primePacket, MetaFifo.take]
  | succ n ih =>
    have hlook : s.step maxFrames total (.primer false) =
        { s with race := { s.race with pop := .slots (.prime maxFrames) s.race.fifo.implicitRead [] } } := by
      simp [step, stepPrimer, hrun, hpop, PopOp.exhausted, FifoRace.stepPopper, hn]
    have hload : run (step maxFrames total) s (List.replicate 2 (.primer false)) =
        { s with race := { s.race with
            pop := .slots (.prime maxFrames) s.race.fifo.implicitRead [s.race.fifo.entry s.race.fifo.implicitRead] } } := by
      rw [List.replicate_succ, run_cons, hlook]
      simp [step, stepPrimer, hrun, FifoRace.stepPopper, PopOp.count, PopPc.isIdle]
    by_cases hzero : min (s.race.fifo.entry s.race.fifo.implicitRead) maxFrames = 0
    · -- the entry is consumed, and an exchange with the stale index fails
      have hskip : run (step maxFrames total) s (List.replicate 6 (.primer false)) =
          { s with race := { s.race with
              fifo := s.race.fifo.take 1
              popped := s.race.popped ++ [(s.race.fifo.entry s.race.fifo.implicitRead, s.race.fifo.implicitRead)]
              pop := .haveRead (.prime maxFrames) (s.race.fifo.implicitRead + 1) } } := by
        rw [show 6 = 2 + 4 from rfl, List.replicate_add, run_append, hload]
        have hne : (s.race.fifo.implicitRead == s.race.fifo.implicitRead + (n + 1)) = false := by simp
        simp [List.replicate_succ, step, stepPrimer, hrun, FifoRace.stepPopper, PopOp.count, PopOp.afterPop, hzero,
          PopPc.isIdle, PopOp.exhausted, hn, MetaFifo.take, hne]
      obtain ⟨k, popped, hk⟩ := ih (s := run (step maxFrames total) s (List.replicate 6 (.primer false)))
        (by rw [hskip]; exact hrun) (by rw [hskip]; rfl)
        (by rw [hskip]; exact hn.trans (Nat.add_right_comm s.race.fifo.implicitRead n 1))
      refine ⟨6 + k, popped, ?_⟩
      rw [List.replicate_add, run_append, hk, hskip]
      simp only [MetaFifo.primePacket, hzero, if_true]
      cases (s.race.fifo.take 1).primePacket maxFrames n with
      | none => simp only [MetaFifo.take, Nat.add_assoc, Nat.add_comm 1 n]
      | some r => rfl
    · refine ⟨3, s.race.popped ++ [(s.race.fifo.entry s.race.fifo.implicitRead, s.race.fifo.implicitRead)], ?_⟩
      rw [show 3 = 2 + 1 from rfl, List.replicate_add, run_append, hload]
      simp [step, stepPrimer, hrun, FifoRace.stepPopper, PopOp.count, PopOp.afterPop, hzero, PopPc.isIdle,
        MetaFifo.primePacket, MetaFifo.take]

/-- The priming loop that nothing interrupts is the one of `Driver.startIsoPump`. -/
theorem run_primePackets (maxFrames total n : Nat) {s : PrimingRace} {pushed : List Nat} (hrun : s.outcome = .running)
    (hidle : s.race.pop = .idle) (hn : s.frames.length + n = total) (hfifo : s.race.fifo.Holds pushed) :
    ∃ k, match s.race.fifo.primePackets maxFrames n with
      | some (plan, fifo) =>
        (run (step maxFrames total) s (List.replicate k (.primer false))).outcome = .primed ∧
        (run (step maxFrames total) s (List.replicate k (.primer false))).frames = s.frames ++ plan ∧
        (run (step maxFrames total) s (List.replicate k (.primer false))).race.fifo = fifo
      | none => (run (step maxFrames total) s (List.replicate k (.primer false))).outcome = .exhausted := by
  induction n generalizing s with
  | zero =>
    refine ⟨1, ?_⟩
    have hdone : ¬ s.frames.length < total := by omega
    simp [MetaFifo.primePackets, step, stepPrimer, hrun, hidle, hdone]
  | succ n ih =>
    have hlt : s.frames.length < total := by omega
    have hbegin : s.step maxFrames total (.primer false) =
        { s with race := { s.race with pop := .haveRead (.prime maxFrames) s.race.fifo.implicitRead } } := by
      simp [step, stepPrimer, hrun, hidle, hlt, FifoRace.step]
    have hle := hfifo.read_le
    have hleft : s.race.fifo.implicitRead + (s.race.fifo.implicitWrite - s.race.fifo.implicitRead) =
        s.race.fifo.implicitWrite := Nat.add_sub_cancel' hle
    obtain ⟨k, popped, hk⟩ := run_primePacket maxFrames total (s.race.fifo.implicitWrite - s.race.fifo.implicitRead)
      (s := s.step maxFrames total (.primer false)) (by rw [hbegin]; exact hrun) (by rw [hbegin])
      (by rw [hbegin]; exact hleft.symm)
    rw [hbegin] at hk
    dsimp only at hk
    simp only [MetaFifo.primePackets]
    cases hpacket : s.race.fifo.primePacket maxFrames (s.race.fifo.implicitWrite - s.race.fifo.implicitRead) with
    | none =>
      rw [hpacket] at hk
      refine ⟨1 + k, ?_⟩
      rw [List.replicate_add, run_append, List.replicate_one, run_cons, run_nil, hbegin, hk]
      rfl
    | some r =>
      obtain ⟨frames, fifo⟩ := r
      rw [hpacket] at hk
      obtain ⟨l, hl⟩ := ih (s := run (step maxFrames total) s (List.replicate (1 + k) (.primer false)))
        (by rw [List.replicate_add, run_append, List.replicate_one, run_cons, run_nil, hbegin, hk]; exact hrun)
        (by rw [List.replicate_add, run_append, List.replicate_one, run_cons, run_nil, hbegin, hk])
        (by rw [List.replicate_add, run_append, List.replicate_one, run_cons, run_nil, hbegin, hk]; simp; omega)
        (by
          rw [List.replicate_add, run_append, List.replicate_one, run_cons, run_nil, hbegin, hk]
          exact hfifo.primePacket (Nat.le_of_eq hleft) hpacket)
      refine ⟨1 + k + l, ?_⟩
      rw [List.replicate_add, run_append]
      rw [List.replicate_add 1 k, run_append, List.replicate_one, run_cons, run_nil, hbegin, hk] at hl ⊢
      simp only [Option.bind_some] at hl ⊢
      cases hrest : fifo.primePackets maxFrames n with
      | none =>
        rw [hrest] at hl
        exact hl
      | some r =>
        rw [hrest] at hl
        simpa using hl

end PrimingRace

/-- The initial packets of an implicit-feedback sink, whatever the event thread pushes meanwhile. -/
theorem implicit_priming (slots : Nat → Nat) (maxFrames count packets stride : Nat) (hstride : 0 < stride)
    (as : List PrimingAct) :
    let s := run (PrimingRace.step maxFrames (count * packets)) (PrimingRace.start slots) as
    let transfers := Transfer.planned s.frames packets stride (maxFrames * stride)
    (s.outcome = .primed → ∃ taken : List (Nat × Nat),
      (taken.map Prod.snd).Pairwise (· < ·) ∧
      (∀ v i, (v, i) ∈ taken → v ≠ 0 ∧ s.race.pushed[i]? = some v) ∧
      (∀ i < s.race.fifo.implicitRead, (∃ v, (v, i) ∈ taken) ∨ s.race.pushed[i]? = some 0 ∨
        ∃ r ∈ s.race.resyncs, r.1 ≤ i ∧ i < r.2) ∧
      taken.length = count * packets ∧
      ((List.range count).flatMap fun t => (transfers t).lengths) = taken.map (fun e => min e.1 maxFrames * stride) ∧
      (∀ t < count, ∀ n ∈ (transfers t).lengths, n ≠ 0) ∧
      ((List.range count).map fun t => (transfers t).descriptorFrames stride).sum =
        (taken.map fun e => min e.1 maxFrames).sum) ∧
    (5 * (count * packets) + (as.map PrimingRace.grant).sum < (as.map PrimingRace.cost).sum → s.outcome ≠ .running) := by
  intro s transfers
  have h : s.Inv maxFrames (count * packets) := .run slots as
  refine ⟨fun hprimed => ⟨s.taken maxFrames, ?_⟩, fun hlt hrun => ?_⟩
  · have hlen := h.primed hprimed
    have hwhole : s.frames.take (count * packets) = s.frames := List.take_of_length_le (Nat.le_of_eq hlen)
    have hlengths : ((List.range count).flatMap fun t => (transfers t).lengths) = s.frames.map (· * stride) := by
      rw [Driver.flatMap_planned_lengths, hwhole]
    refine ⟨?_, ?_, ?_, ?_, ?_, ?_, ?_⟩
    · exact List.pairwise_map.2 (h.race.popped_sorted.sublist List.filter_sublist)
    · intro v i hmem
      obtain ⟨hpopped, hpos⟩ := List.mem_filter.1 hmem
      simp only [decide_eq_true_eq] at hpos
      exact ⟨by omega, h.race.popped_val _ hpopped⟩
    · intro i hi
      rcases h.race.covered i hi with ⟨⟨v, j⟩, hmem, rfl⟩ | hr
      · by_cases htaken : (v, j) ∈ s.taken maxFrames
        · exact .inl ⟨v, htaken⟩
        · have hval := h.race.popped_val _ hmem
          rw [h.zero_of_not_taken hprimed hmem htaken] at hval
          exact .inr (.inl hval)
      · exact .inr (.inr hr)
    · rw [← hlen, h.frames_taken, List.length_map]
    · rw [hlengths, h.frames_taken, List.map_map]
      rfl
    · intro t ht n hn
      have hmem : n ∈ (List.range count).flatMap fun t => (transfers t).lengths :=
        List.mem_flatMap.2 ⟨t, List.mem_range.2 ht, hn⟩
      rw [hlengths, h.frames] at hmem
      obtain ⟨frames, hframes, rfl⟩ := List.mem_map.1 hmem
      have hpos : 0 < frames := by simpa using (List.mem_filter.1 hframes).2
      exact Nat.ne_of_gt (Nat.mul_pos hpos hstride)
    · simp only [transfers, Driver.descriptorFrames_planned hstride, Driver.sum_take_chunks, hwhole]
      rw [h.frames_taken]
  · have := PrimingRace.run_accesses slots as hrun
    omega

/-- A push that nothing interrupts, as `onCapture` makes it. -/
def PrimingRace.pushAll (vs : List Nat) : List PrimingAct :=
  vs.flatMap fun v => .beginPush v :: List.replicate 5 (.pusher false)

/-- Two packets from the counts 6, 0 and 12, with a push of 5 in the middle of the first pop. -/
def PrimingRace.threeCounts : List PrimingAct :=
  PrimingRace.pushAll [6, 0, 12] ++ .primer false :: .beginPush 5 :: .primer true :: .primer false :: .primer true ::
    .pusher false :: List.replicate 20 (.primer false)

theorem implicit_priming_threeCounts :
    (run (PrimingRace.step 7 (1 * 2)) (PrimingRace.start fun _ => 9) PrimingRace.threeCounts).frames = [6, 7] ∧
      ∃ taken : List (Nat × Nat), (taken.map Prod.snd).Pairwise (· < ·) ∧ taken.length = 2 := by
  have hprimed :
      (run (PrimingRace.step 7 (1 * 2)) (PrimingRace.start fun _ => 9) PrimingRace.threeCounts).outcome = .primed := rfl
  obtain ⟨taken, hsorted, -, -, hlen, -⟩ :=
    (implicit_priming (fun _ => 9) 7 1 2 4 (by decide) PrimingRace.threeCounts).1 hprimed
  exact ⟨rfl, taken, hsorted, hlen⟩

end UacDriver
