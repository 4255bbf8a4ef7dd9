import UacDriver.ImplicitTransfer
import UacDriver.PackLayout

/-!
# Submitting a quantum next to the other threads

`submitQuantum` is a sequence of loads, one exchange, the packing and two stores. The event thread drains and completes
transfers, the control thread starts playback, sets policies and stops the adapter, and each of them may do so between
any two of these steps. `QuantumRun` is what the call works on; `env k` is what the other threads do before its step
`k`, and `turns` what they do in the turns of the credit loop whose exchange fails. A block is published whole or not
at all, and credit is spent only for a block that is published: behind the exchange nothing can refuse, because `start`
has checked what the packing dispatches on, and the room that was reserved only grows.
-/

namespace UacDriver

open Circular Runs

structure QuantumRun (w : Nat) where
  /-- The playback ring with the call's region. -/
  run : PlaybackRun w
  accepting : Bool := true
  admissionPolicy : Nat := 0
  /-- History: the credit that completions have granted. -/
  granted : Int := 0
  /-- History: the policy and the started flag as last loaded to decide on a charge. -/
  policySeen : Option Nat := none
  startedSeen : Option Bool := none

/-- A step of another thread. -/
inductive InterleavedAct where
  | drain (bytes : Nat)
  /-- `onIso` takes the frames of a completed transfer off the queue. -/
  | completeOut (frames : Nat)
  /-- `onIso` grants them as credit once playback has started. -/
  | creditOut (frames : Nat)
  | queueSubmitted (frames : Nat)
  /-- `startPlayback`, a stop and the stores of the buffering policy. -/
  | policy (started : Bool) (target prime headroom : Nat)
  | setPlaybackCreditReserve (frames : Nat)
  | setAdmissionPolicy (policy : Nat)
  | setAccepting (accepting : Bool)

namespace QuantumRun

variable {w : Nat} (s : QuantumRun w)

def withPlayback (pb : Playback w) : QuantumRun w := { s with run := { s.run with pb } }

def step (s : QuantumRun w) : InterleavedAct → QuantumRun w
  | .drain bytes => { s with run := s.run.step (.drain bytes) }
  | .completeOut frames => s.withPlayback (s.run.pb.subtractQueued frames)
  | .creditOut frames =>
    if s.run.pb.playbackStarted then
      { s.withPlayback { s.run.pb with playbackCredit := s.run.pb.playbackCredit + frames } with
        granted := s.granted + frames }
    else s
  | .queueSubmitted frames => s.withPlayback { s.run.pb with queuedOutFrames := s.run.pb.queuedOutFrames + frames }
  | .policy started target prime headroom => { s with run := s.run.step (.policy started target prime headroom) }
  | .setPlaybackCreditReserve frames => s.withPlayback { s.run.pb with playbackCreditReserve := frames }
  | .setAdmissionPolicy policy => { s with admissionPolicy := policy }
  | .setAccepting accepting => { s with accepting }

def interfere (acts : List InterleavedAct) : QuantumRun w := Runs.run step s acts

/-! ### The call -/

variable (env : Nat → List InterleavedAct)

/-- The loads of `writableFrames` and of `preparePlaybackWrite` from step `k` on: the tail, the started flag, the target
or the prime, the headroom. The second part is the playback state that they add up to. -/
def loadAdmission (k : Nat) : QuantumRun w × Playback w :=
  let s₁ := s.interfere (env k)
  let s₂ := s₁.interfere (env (k + 1))
  let s₃ := s₂.interfere (env (k + 2))
  let s₄ := s₃.interfere (env (k + 3))
  (s₄, { s₁.run.pb with
    playbackStarted := s₂.run.pb.playbackStarted
    playbackTargetFrames := s₃.run.pb.playbackTargetFrames
    startupPrimeFrames := s₃.run.pb.startupPrimeFrames
    writeHeadroomFrames := s₄.run.pb.writeHeadroomFrames })

/-- `preparePlaybackWrite`: the region comes from what was loaded, the overrun episode is noted in the present state. -/
def preparePlaybackWrite (k : Nat) (frames : Int) : QuantumRun w × PlaybackWriteRegion w :=
  let (s', seen) := s.loadAdmission env k
  let r := seen.preparePlaybackWrite frames
  ({ s' with run := { s'.run with
      pb := { s'.run.pb with
        playbackOverruns := r.1.playbackOverruns, playbackOverrunActive := r.1.playbackOverrunActive }
      region := r.2 } },
    r.2)

/-- The successful exchange. -/
def debit (frames : Int) : QuantumRun w :=
  s.withPlayback { s.run.pb with playbackCredit := s.run.pb.playbackCredit - frames }

/-- The loop of `takePlaybackCredit` with the value last loaded. In a turn the other threads run before the exchange,
which fails if they changed the credit, and may fail anyway; the last turn is undisturbed. -/
def creditLoop (floor frames : Int) : List (List InterleavedAct × Bool) → Int → QuantumRun w → QuantumRun w × Bool
  | [], credit, s => if credit - frames ≥ floor then (s.debit frames, true) else (s, false)
  | (acts, spurious) :: turns, credit, s =>
    if credit - frames ≥ floor then
      let s' := s.interfere acts
      if s'.run.pb.playbackCredit = credit ∧ !spurious then (s'.debit frames, true)
      else creditLoop floor frames turns s'.run.pb.playbackCredit s'
    else (s, false)

/-- `takePlaybackCredit` on a stream that plays: the loads of the floor and of the credit, then the loop. -/
def spendCredit (k : Nat) (turns : List (List InterleavedAct × Bool)) (frames : Int) : QuantumRun w × Bool :=
  let s₁ := s.interfere (env k)
  let s₂ := s₁.interfere (env (k + 1))
  let s₃ := s₂.interfere (env (k + 2))
  let floor : Int := -(s₁.run.pb.playbackTargetFrames : Int) - (s₂.run.pb.queuedOutFrames : Int) -
    (s₃.run.pb.playbackCreditReserve : Int)
  let s₄ := s₃.interfere (env (k + 3))
  creditLoop floor frames turns s₄.run.pb.playbackCredit s₄

def takePlaybackCredit (k : Nat) (turns : List (List InterleavedAct × Bool)) (frames : Int) : QuantumRun w × Bool :=
  if frames ≤ 0 then (s, true)
  else
    let s' := s.interfere (env k)
    let seen := { s' with startedSeen := some s'.run.pb.playbackStarted }
    if !s'.run.pb.playbackStarted then (seen, true) else seen.spendCredit env (k + 1) turns frames

/-- The middle terms of the condition: the charge, if one is due. -/
def charge (k : Nat) (turns : List (List InterleavedAct × Bool)) (frames : Int) (chargeCredit : Bool) :
    QuantumRun w × Bool :=
  if !chargeCredit then (s, true)
  else
    let s' := s.interfere (env k)
    let seen := { s' with policySeen := some s'.admissionPolicy }
    if s'.admissionPolicy ≠ 1 then (seen, true) else seen.takePlaybackCredit env (k + 1) turns frames

/-- The packing: the bytes of the ring are `data` from now on. -/
def storeData (data : Nat → UInt8) : QuantumRun w :=
  s.withPlayback { s.run.pb with ring := { s.run.pb.ring with data } }

/-- The store of the head, then the count. -/
def commitPlaybackWrite (k : Nat) (region : PlaybackWriteRegion w) : QuantumRun w :=
  if region.frames = 0 ∨ region.frameStride = 0 then s
  else
    let head := region.producerCursor + BitVec.ofNat w (region.frames * region.frameStride)
    let stored : QuantumRun w := { s with run := { s.run with
      pb := { s.run.pb with ring := { s.run.pb.ring with head } }
      committed := s.run.committed ++ s.run.regionBytes, region := {} } }
    let s₁ := stored.interfere (env k)
    s₁.withPlayback { s₁.run.pb with writtenFrames := s₁.run.pb.writtenFrames + region.frames }

def noteQuantumWritten (k : Nat) : QuantumRun w :=
  let s' := s.interfere (env k)
  s'.withPlayback s'.run.pb.noteQuantumWritten

/-- A return of false: the region is gone with the call. -/
def refuse : QuantumRun w × Bool := ({ s with run := s.run.step .abandon }, false)

end QuantumRun

namespace DirectUsbOutput

variable {α : Type} (o : DirectUsbOutput) (quantise : (bits : Nat) → α → BitVec bits) {w : Nat}

/-- `submitQuantum` with the other threads running between its steps. -/
def submitQuantumWith (env : Nat → List InterleavedAct) (turns : List (List InterleavedAct × Bool)) (s : QuantumRun w)
    (left right : Nat → α) (frames : Int) (chargeCredit : Bool) : QuantumRun w × Bool :=
  let s₀ := s.interfere (env 0)
  if frames ≤ 0 ∨ frames > kMaxFramesPerWrite ∨ !s₀.accepting then s₀.refuse
  else
    let (s₁, seen) := s₀.loadAdmission env 1
    let s₂ := s₁.interfere (env 5)
    if s₂.accepting ∧ frames ≤ seen.writableFrames then
      let (s₃, region) := s₂.preparePlaybackWrite env 6 frames
      if region.frames = frames then
        let (s₄, paid) := s₃.charge env 10 turns frames chargeCredit
        let s₅ := s₄.interfere (env 17)
        match paid, o.packPlaybackRegionForFormat quantise s₅.run.pb.ring.data region left right with
        | true, some data =>
          ((((s₅.storeData data).interfere (env 18)).commitPlaybackWrite env 19 region).noteQuantumWritten env 20, true)
        | _, _ => s₅.refuse
      else s₃.refuse
    else s₂.refuse

end DirectUsbOutput

/-! ### What the other threads leave alone -/

/-- The invariant of the ring looks at no other field but the format. -/
theorem PlaybackRun.Inv.playback {w : Nat} {s : PlaybackRun w} (h : s.Inv) (pb : Playback w) (hring : pb.ring = s.pb.ring)
    (hformat : pb.format = s.pb.format) : PlaybackRun.Inv { s with pb } := by
  have hstride : pb.stride = s.pb.stride := congrArg StreamFormat.frameStride hformat
  refine ⟨?_, ?_, ?_⟩
  · show pb.ring.used ≤ pb.ring.size.bytes
    rw [hring]
    exact h.used_le
  · refine h.region.imp_right fun hfits => ?_
    obtain ⟨h₁, h₂, h₃, h₄, h₅, h₆⟩ := hfits
    rw [← hring] at h₁ h₃ h₄ h₆
    exact ⟨h₁, h₂.trans hstride.symm, h₃, h₄, h₅, h₆⟩
  · show s.committed = s.drained ++ pb.ring.contents
    rw [hring]
    exact h.fifo

/-- A region that fits still fits when bytes have been drained since. -/
theorem PlaybackWriteRegion.Fits.later {w : Nat} {region : PlaybackWriteRegion w} {p p' : Playback w} (h : region.Fits p)
    (hhead : p'.ring.head = p.ring.head) (hsize : p'.ring.size = p.ring.size) (hstride : p'.stride = p.stride)
    (hused : p'.ring.used ≤ p.ring.used) : region.Fits p' := by
  obtain ⟨h₁, h₂, h₃, h₄, h₅, h₆⟩ := h
  rw [← hhead] at h₁ h₃ h₄
  rw [← hsize] at h₃ h₄ h₆
  exact ⟨h₁, h₂.trans hstride.symm, h₃, h₄, h₅, by omega⟩

namespace QuantumRun

variable {w : Nat} {s s' s'' : QuantumRun w} {a b : Int}

/-- From `s` to `s'` the call has published nothing and spent `spent` frames of credit. -/
structure Kept (spent : Int) (s s' : QuantumRun w) : Prop where
  inv : s'.run.Inv
  committed : s'.run.committed = s.run.committed
  head : s'.run.pb.ring.head = s.run.pb.ring.head
  size : s'.run.pb.ring.size = s.run.pb.ring.size
  used : s'.run.pb.ring.used ≤ s.run.pb.ring.used
  format : s'.run.pb.format = s.run.pb.format
  written : s'.run.pb.writtenFrames = s.run.pb.writtenFrames
  ledger : s'.run.pb.playbackCredit - s'.granted = s.run.pb.playbackCredit - s.granted - spent

namespace Kept

theorem refl (h : s.run.Inv) : Kept 0 s s := ⟨h, rfl, rfl, rfl, le_rfl, rfl, rfl, by omega⟩

theorem trans (h : Kept a s s') (h' : Kept b s' s'') : Kept (a + b) s s'' := by
  have hledger := h.ledger
  have hledger' := h'.ledger
  exact ⟨h'.inv, h'.committed.trans h.committed, h'.head.trans h.head,
    h'.size.trans h.size, h'.used.trans h.used, h'.format.trans h.format, h'.written.trans h.written, by omega⟩

theorem after (h : Kept 0 s s') (h' : Kept a s' s'') : Kept a s s'' := by
  have := h.trans h'
  rwa [Int.zero_add] at this

/-- A change of playback fields other than the ring, the format and the count. -/
theorem of_playback (h : s.run.Inv) {pb : Playback w} (hrun : s'.run = { s.run with pb }) (hring : pb.ring = s.run.pb.ring)
    (hformat : pb.format = s.run.pb.format) (hwritten : pb.writtenFrames = s.run.pb.writtenFrames)
    (hledger : s'.run.pb.playbackCredit - s'.granted = s.run.pb.playbackCredit - s.granted - a) : Kept a s s' := by
  have hpb : s'.run.pb = pb := by rw [hrun]
  have hring' : s'.run.pb.ring = s.run.pb.ring := by rw [hpb, hring]
  exact ⟨hrun ▸ h.playback _ hring hformat, by rw [hrun], congrArg _ hring', congrArg _ hring', (congrArg _ hring').le,
    by rw [hpb, hformat], by rw [hpb, hwritten], hledger⟩

theorem step (h : s.run.Inv) (act : InterleavedAct) : Kept 0 s (s.step act) := by
  cases act with
  | drain bytes =>
    have hring : (s.step (.drain bytes)).run.pb.ring = s.run.pb.ring.advanceTail (s.run.pb.drainCount bytes) :=
      Playback.drainRing_ring bytes
    refine ⟨h.drain bytes, rfl, ?_, ?_, ?_, rfl, rfl, (Int.sub_zero _).symm⟩
    · rw [hring]
      rfl
    · rw [hring]
      rfl
    · rw [hring, Ring.used_advanceTail (Playback.drainCount_le_used bytes)]
      exact Nat.sub_le ..
  | creditOut frames =>
    simp only [QuantumRun.step]
    split
    · refine of_playback h rfl rfl rfl rfl ?_
      show s.run.pb.playbackCredit + frames - (s.granted + frames) = _
      omega
    · exact refl h
  | completeOut frames => exact of_playback h rfl rfl rfl rfl (Int.sub_zero _).symm
  | queueSubmitted frames => exact of_playback h rfl rfl rfl rfl (Int.sub_zero _).symm
  | policy started target prime headroom => exact of_playback h rfl rfl rfl rfl (Int.sub_zero _).symm
  | setPlaybackCreditReserve frames => exact of_playback h rfl rfl rfl rfl (Int.sub_zero _).symm
  | setAdmissionPolicy policy => exact of_playback h rfl rfl rfl rfl (Int.sub_zero _).symm
  | setAccepting accepting => exact of_playback h rfl rfl rfl rfl (Int.sub_zero _).symm

theorem interfere (h : s.run.Inv) (acts : List InterleavedAct) : Kept 0 s (s.interfere acts) := by
  induction acts generalizing s with
  | nil => exact refl h
  | cons act acts ih =>
    have hstep := step h act
    exact hstep.trans (ih hstep.inv)

/-- More interference behind what the call has done. -/
theorem disturbed (h : Kept a s s') (acts : List InterleavedAct) : Kept a s (s'.interfere acts) := by
  have := h.trans (interfere h.inv acts)
  rwa [Int.add_zero] at this

theorem debit (h : s.run.Inv) (frames : Int) : Kept frames s (s.debit frames) := by
  refine of_playback h rfl rfl rfl rfl ?_
  show s.run.pb.playbackCredit - frames - s.granted = _
  omega

theorem creditLoop (h : s.run.Inv) (floor frames : Int) (turns : List (List InterleavedAct × Bool)) (credit : Int) :
    let r := QuantumRun.creditLoop floor frames turns credit s
    Kept (if r.2 then frames else 0) s r.1 := by
  induction turns generalizing s credit with
  | nil =>
    simp only [QuantumRun.creditLoop]
    split
    · exact debit h frames
    · exact refl h
  | cons turn turns ih =>
    have hturn := interfere h turn.1
    simp only [QuantumRun.creditLoop]
    split
    · split
      · exact hturn.after (debit hturn.inv frames)
      · exact hturn.after (ih hturn.inv _)
    · exact refl h

end Kept

/-! ### The locals of the call -/

/-- The region that the call holds and what it has seen. -/
def locals (s : QuantumRun w) : PlaybackWriteRegion w × Option Nat × Option Bool :=
  (s.run.region, s.policySeen, s.startedSeen)

@[simp] theorem interfere_locals (s : QuantumRun w) (acts : List InterleavedAct) : (s.interfere acts).locals = s.locals := by
  induction acts generalizing s with
  | nil => rfl
  | cons act acts ih =>
    refine (ih (s.step act)).trans ?_
    cases act with
    | creditOut frames => simp only [QuantumRun.step]; split <;> rfl
    | _ => rfl

@[simp] theorem creditLoop_locals (floor frames : Int) (turns : List (List InterleavedAct × Bool)) (credit : Int)
    (s : QuantumRun w) : (creditLoop floor frames turns credit s).1.locals = s.locals := by
  induction turns generalizing s credit with
  | nil =>
    simp only [creditLoop]
    split <;> rfl
  | cons turn turns ih =>
    have hturn := interfere_locals s turn.1
    simp only [creditLoop]
    split
    · split
      · exact hturn
      · exact (ih _ _).trans hturn
    · rfl

/-- The other threads store nothing into the ring. -/
theorem interfere_regionBytes (s : QuantumRun w) (acts : List InterleavedAct) :
    (s.interfere acts).run.regionBytes = s.run.regionBytes := by
  induction acts generalizing s with
  | nil => rfl
  | cons act acts ih =>
    refine (ih (s.step act)).trans ?_
    cases act with
    | drain bytes =>
      show PlaybackRun.regionBytes (s.run.step (.drain bytes)) = _
      simp only [PlaybackRun.regionBytes, PlaybackRun.step, Playback.drainRing_ring]
      rfl
    | creditOut frames => simp only [QuantumRun.step]; split <;> rfl
    | _ => rfl

/-- The charge that was due: charging was asked for, the policy was the credit policy and playback had started. -/
def debited (s : QuantumRun w) (chargeCredit : Bool) (frames : Int) : Int :=
  if chargeCredit = true ∧ s.policySeen = some 1 ∧ s.startedSeen = some true then frames else 0

/-! ### The stages of the call -/

variable (env : Nat → List InterleavedAct)

theorem spendCredit_kept (h : s.run.Inv) (k : Nat) (turns : List (List InterleavedAct × Bool)) (frames : Int) :
    let r := s.spendCredit env k turns frames
    Kept (if r.2 then frames else 0) s r.1 ∧ r.1.locals = s.locals := by
  have hloaded := ((((Kept.refl h).disturbed (env k)).disturbed (env (k + 1))).disturbed (env (k + 2))).disturbed
    (env (k + 3))
  constructor
  · exact hloaded.after (Kept.creditLoop hloaded.inv _ frames turns _)
  · simp [spendCredit]

/-- Noting what was seen changes nothing else. -/
theorem Kept.seen (h : Kept a s s') (policySeen : Option Nat) (startedSeen : Option Bool) :
    Kept a s { s' with policySeen, startedSeen } := by
  obtain ⟨h₁, h₂, h₃, h₄, h₅, h₆, h₇, h₈⟩ := h
  exact ⟨h₁, h₂, h₃, h₄, h₅, h₆, h₇, h₈⟩

theorem takePlaybackCredit_kept (h : s.run.Inv) {frames : Int} (hframes : 0 < frames) (hpolicy : s.policySeen = some 1)
    (k : Nat) (turns : List (List InterleavedAct × Bool)) :
    let r := s.takePlaybackCredit env k turns frames
    Kept (if r.2 then r.1.debited true frames else 0) s r.1 ∧ r.1.run.region = s.run.region := by
  have hlocals := interfere_locals s (env k)
  simp only [locals, Prod.mk.injEq] at hlocals
  unfold takePlaybackCredit
  rw [if_neg (by omega)]
  dsimp only
  have hseen := (Kept.interfere h (env k)).seen (s.interfere (env k)).policySeen
    (some (s.interfere (env k)).run.pb.playbackStarted)
  generalize s.interfere (env k) = s₁ at *
  split
  · rename_i hstopped
    have hfree : QuantumRun.debited { s₁ with startedSeen := some s₁.run.pb.playbackStarted } true frames = 0 := by
      refine if_neg fun hall => ?_
      have hstarted : s₁.run.pb.playbackStarted = true := Option.some_inj.1 hall.2.2
      simp [hstarted] at hstopped
    rw [if_pos rfl, hfree]
    exact ⟨hseen, hlocals.1⟩
  · rename_i hrunning
    have hstarted : s₁.run.pb.playbackStarted = true := by simpa using hrunning
    obtain ⟨hspent, hends⟩ := spendCredit_kept env hseen.inv (k + 1) turns frames
    simp only [locals, Prod.mk.injEq] at hends
    have hdue : (spendCredit { s₁ with startedSeen := some s₁.run.pb.playbackStarted } env (k + 1) turns frames).1.debited
        true frames = frames := by
      refine if_pos ⟨rfl, ?_, ?_⟩
      · rw [hends.2.1, hlocals.2.1, hpolicy]
      · rw [hends.2.2, hstarted]
    rw [hdue]
    exact ⟨hseen.after hspent, hends.1.trans hlocals.1⟩

/-- The charge: what it spends is what was due, if it succeeds, and nothing otherwise. -/
theorem charge_kept (h : s.run.Inv) {frames : Int} (hframes : 0 < frames) (k : Nat) (turns : List (List InterleavedAct × Bool))
    (chargeCredit : Bool) :
    let r := s.charge env k turns frames chargeCredit
    Kept (if r.2 then r.1.debited chargeCredit frames else 0) s r.1 ∧ r.1.run.region = s.run.region := by
  have hlocals := interfere_locals s (env k)
  simp only [locals, Prod.mk.injEq] at hlocals
  unfold charge
  cases chargeCredit with
  | false => exact ⟨.refl h, rfl⟩
  | true =>
    rw [if_neg (by decide)]
    dsimp only
    have hseen := (Kept.interfere h (env k)).seen (some (s.interfere (env k)).admissionPolicy)
      (s.interfere (env k)).startedSeen
    generalize s.interfere (env k) = s₁ at *
    split
    · rename_i hother
      have hfree : QuantumRun.debited { s₁ with policySeen := some s₁.admissionPolicy } true frames = 0 :=
        if_neg fun hall => hother (Option.some_inj.1 hall.2.1)
      rw [if_pos rfl, hfree]
      exact ⟨hseen, hlocals.1⟩
    · rename_i hcredit
      obtain ⟨hspent, hregion⟩ := takePlaybackCredit_kept env hseen.inv hframes
        (congrArg some (Decidable.not_not.1 hcredit)) (k + 1) turns
      exact ⟨hseen.after hspent, hregion.trans hlocals.1⟩

/-- What the loads of an admission saw: a ring with the same head whose tail may lie behind by now. -/
theorem loadAdmission_kept (h : s.run.Inv) (k : Nat) :
    let r := s.loadAdmission env k
    Kept 0 s r.1 ∧ r.2.ring.head = s.run.pb.ring.head ∧ r.2.ring.size = s.run.pb.ring.size ∧
      r.2.format = s.run.pb.format ∧ r.1.run.pb.ring.used ≤ r.2.ring.used ∧ r.2.ring.used ≤ r.2.ring.size.bytes := by
  have h₁ := Kept.interfere h (env k)
  have h₂ := (((Kept.refl h₁.inv).disturbed (env (k + 1))).disturbed (env (k + 2))).disturbed (env (k + 3))
  exact ⟨h₁.after h₂, h₁.head, h₁.size, h₁.format, h₂.used, h₁.inv.used_le⟩

/-- The region that a call holds lies in the free bytes of the present ring. -/
theorem preparePlaybackWrite_kept (h : s.run.Inv) (k : Nat) (frames : Int) :
    let r := s.preparePlaybackWrite env k frames
    Kept 0 s r.1 ∧ r.1.run.region = r.2 ∧ (r.2 = {} ∨ r.2.Fits r.1.run.pb) := by
  obtain ⟨hkept, hhead, hsize, hformat, hused, hle⟩ := loadAdmission_kept env h k
  have hregion := Playback.preparePlaybackWrite_region hle frames
  unfold preparePlaybackWrite
  dsimp only
  generalize s.loadAdmission env k = r at *
  have hfits : (r.2.preparePlaybackWrite frames).2 = {} ∨ (r.2.preparePlaybackWrite frames).2.Fits r.1.run.pb := by
    refine hregion.imp_right fun hseen => hseen.1.later ?_ ?_ ?_ hused
    · rw [hkept.head, hhead]
    · rw [hkept.size, hsize]
    · exact congrArg StreamFormat.frameStride (hkept.format.trans hformat.symm)
  refine ⟨⟨⟨hkept.inv.used_le, ?_, hkept.inv.fifo⟩, hkept.committed, hkept.head, hkept.size, hkept.used, hkept.format,
    hkept.written, hkept.ledger⟩, rfl, ?_⟩
  · refine hfits.imp_right fun hf => ?_
    exact ⟨hf.cursor, hf.stride, hf.first, hf.firstBytes, hf.secondBytes, hf.fit⟩
  · refine hfits.imp_right fun hf => ?_
    exact ⟨hf.cursor, hf.stride, hf.first, hf.firstBytes, hf.secondBytes, hf.fit⟩

/-- The stores that publish a region: its bytes are appended, its frames counted. -/
theorem commitPlaybackWrite_published (h : s.run.Inv) (k : Nat) {region : PlaybackWriteRegion w}
    (hregion : s.run.region = region) (hfits : region.Fits s.run.pb) (hframes : 0 < region.frames)
    (hstride : 0 < region.frameStride) :
    let r := (s.commitPlaybackWrite env k region).noteQuantumWritten env (k + 1)
    r.run.Inv ∧ r.run.region = {} ∧ r.run.committed = s.run.committed ++ s.run.regionBytes ∧
      r.run.pb.ring.head = s.run.pb.ring.head + BitVec.ofNat w (region.frames * region.frameStride) ∧
      r.run.pb.writtenFrames = s.run.pb.writtenFrames + region.frames ∧
      r.run.pb.playbackCredit - r.granted = s.run.pb.playbackCredit - s.granted ∧
      r.policySeen = s.policySeen ∧ r.startedSeen = s.startedSeen := by
  have hargs : ¬(region.frames = 0 ∨ region.frameStride = 0) := by omega
  unfold commitPlaybackWrite noteQuantumWritten
  rw [if_neg hargs]
  dsimp only
  obtain ⟨stored, hstored⟩ : ∃ stored : QuantumRun w, stored = { s with run := { s.run with
      pb := { s.run.pb with ring := { s.run.pb.ring with
        head := region.producerCursor + BitVec.ofNat w (region.frames * region.frameStride) } }
      committed := s.run.committed ++ s.run.regionBytes, region := {} } } := ⟨_, rfl⟩
  rw [← hstored]
  have hinv : stored.run.Inv := by
    have hcommit : (s.run.step .commit).pb.ring = { s.run.pb.ring with
        head := region.producerCursor + BitVec.ofNat w (region.frames * region.frameStride) } := by
      show (s.run.pb.commitPlaybackWrite s.run.region).ring = _
      rw [hregion, Playback.commitPlaybackWrite, if_neg hargs]
    have hformat : (s.run.step .commit).pb.format = s.run.pb.format := by
      show (s.run.pb.commitPlaybackWrite s.run.region).format = _
      rw [hregion, Playback.commitPlaybackWrite, if_neg hargs]
    rw [hstored]
    exact h.commit.playback { s.run.pb with ring := _ } hcommit.symm hformat.symm
  -- the count is added behind the store, and other threads run before and after it
  have h₁ := Kept.interfere hinv (env k)
  have hlocals₁ := interfere_locals stored (env k)
  generalize stored.interfere (env k) = s₁ at *
  obtain ⟨s₂, hs₂⟩ : ∃ s₂, s₂ = s₁.withPlayback { s₁.run.pb with writtenFrames := s₁.run.pb.writtenFrames + region.frames } :=
    ⟨_, rfl⟩
  rw [← hs₂]
  have hinv₂ : s₂.run.Inv := hs₂ ▸ h₁.inv.playback _ rfl rfl
  have h₂ := Kept.interfere hinv₂ (env (k + 1))
  have hlocals₂ := interfere_locals s₂ (env (k + 1))
  generalize s₂.interfere (env (k + 1)) = s₃ at *
  subst hs₂ hstored
  simp only [locals, Prod.mk.injEq] at hlocals₁ hlocals₂
  have hcommitted : s₃.run.committed = s.run.committed ++ s.run.regionBytes := h₂.committed.trans h₁.committed
  have hhead : s₃.run.pb.ring.head = region.producerCursor + BitVec.ofNat w (region.frames * region.frameStride) :=
    h₂.head.trans h₁.head
  have hwritten : s₃.run.pb.writtenFrames = s.run.pb.writtenFrames + region.frames := by
    rw [h₂.written]
    exact congrArg (· + region.frames) h₁.written
  have hledger : s₃.run.pb.playbackCredit - s₃.granted = s.run.pb.playbackCredit - s.granted := by
    have hledger₁ := h₁.ledger
    have hledger₂ := h₂.ledger
    simp only [withPlayback] at hledger₁ hledger₂
    omega
  rw [hfits.cursor] at hhead
  refine ⟨h₂.inv.playback _ rfl rfl, hlocals₂.1.trans hlocals₁.1, hcommitted, hhead, hwritten, hledger, ?_, ?_⟩
  · exact hlocals₂.2.1.trans hlocals₁.2.1
  · exact hlocals₂.2.2.trans hlocals₁.2.2

end QuantumRun

/-! ### Refused or published -/

namespace QuantumRun

variable {w : Nat} {s s' : QuantumRun w}

/-- What a false result leaves: the head, the bytes committed up to now, read or not, the count, and the credit apart
from what completions granted. -/
structure Refused (s s' : QuantumRun w) : Prop where
  head : s'.run.pb.ring.head = s.run.pb.ring.head
  stream : s'.run.drained ++ s'.run.pb.ring.contents = s.run.drained ++ s.run.pb.ring.contents
  written : s'.run.pb.writtenFrames = s.run.pb.writtenFrames
  ledger : s'.run.pb.playbackCredit - s'.granted = s.run.pb.playbackCredit - s.granted

/-- What a true result adds: `bytes` behind all that was committed, `frames` to the count, and `spent` taken off the
credit. -/
structure Published (s s' : QuantumRun w) (bytes : List UInt8) (frames : Nat) (spent : Int) : Prop where
  head : s'.run.pb.ring.head = s.run.pb.ring.head + BitVec.ofNat w bytes.length
  stream : s'.run.drained ++ s'.run.pb.ring.contents = s.run.drained ++ s.run.pb.ring.contents ++ bytes
  written : s'.run.pb.writtenFrames = s.run.pb.writtenFrames + frames
  ledger : s'.run.pb.playbackCredit - s'.granted = s.run.pb.playbackCredit - s.granted - spent

/-- A packed region is published as it stands, whatever happens before and behind the stores. -/
theorem Kept.publish {spent : Int} (h : Kept spent s s') (env : Nat → List InterleavedAct) (hinv : s.run.Inv)
    (hfits : s'.run.region.Fits s'.run.pb) (hframes : 0 < s'.run.region.frames) (hstride : 0 < s'.run.region.frameStride)
    {data : Nat → UInt8} {bytes : List UInt8}
    (hpacked : (s'.storeData data).run.Inv) (hbytes : (s'.storeData data).run.regionBytes = bytes)
    (acts : List InterleavedAct) (k : Nat) :
    let r := (((s'.storeData data).interfere acts).commitPlaybackWrite env k s'.run.region).noteQuantumWritten env (k + 1)
    Published s r bytes s'.run.region.frames spent ∧ r.policySeen = s'.policySeen ∧ r.startedSeen = s'.startedSeen := by
  have hq := Kept.interfere hpacked acts
  have hlocals := interfere_locals (s'.storeData data) acts
  have hsame := (interfere_regionBytes (s'.storeData data) acts).trans hbytes
  generalize (s'.storeData data).interfere acts = q at *
  simp only [locals, Prod.mk.injEq] at hlocals
  have hregion : q.run.region = s'.run.region := hlocals.1
  have hfitsq : s'.run.region.Fits q.run.pb :=
    hfits.later hq.head hq.size (congrArg StreamFormat.frameStride hq.format) hq.used
  obtain ⟨hrinv, -, hcommitted, hhead, hwritten, hledger, hpolicy, hstarted⟩ :=
    commitPlaybackWrite_published env hq.inv k hregion hfitsq hframes hstride
  dsimp only
  have hlength : bytes.length = s'.run.region.frames * s'.run.region.frameStride := by
    rw [← hbytes, PlaybackRun.regionBytes, List.length_append, copyOut_length, copyOut_length]
    exact hfits.bytes_eq
  refine ⟨⟨?_, ?_, ?_, ?_⟩, hpolicy.trans hlocals.2.1, hstarted.trans hlocals.2.2⟩
  · rw [hhead, hq.head, hlength]
    exact congrArg (· + _) h.head
  · rw [← hrinv.fifo, hcommitted, hsame, hq.committed, ← hinv.fifo]
    exact congrArg (· ++ bytes) h.committed
  · rw [hwritten, hq.written]
    exact congrArg (· + _) h.written
  · have hledgerq := hq.ledger
    have hledgers := h.ledger
    simp only [storeData, withPlayback] at hledgerq
    omega

theorem Kept.refuse (h : Kept 0 s s') (hinv : s.run.Inv) : Refused s s'.refuse.1 := by
  refine ⟨h.head, ?_, h.written, ?_⟩
  · rw [← hinv.fifo, ← h.committed]
    exact h.inv.fifo.symm
  · have := h.ledger
    rw [Int.sub_zero] at this
    exact this

end QuantumRun

namespace DirectUsbOutput

variable {α : Type} {o : DirectUsbOutput} {quantise : (bits : Nat) → α → BitVec bits} {w : Nat}

theorem Accepted.frame_pos (ho : o.Accepted) : 0 < o.deviceChannels * o.formatBytes := by
  have hvalid : 0 < validBytes o.formatBits := by
    rcases ho.bits with h | h | h <;> rw [h] <;> decide
  have hbytes := ho.bytes.1
  have hpair := ho.pair
  exact Nat.mul_pos (by omega) (by omega)

variable (quantise) in
/-- The packing of a region that fits: it cannot fail, and what the region then holds is the block. -/
theorem pack_region (ho : o.Accepted) {q : QuantumRun w} (h : q.run.Inv) (hfits : q.run.region.Fits q.run.pb)
    (hstride : q.run.pb.stride = o.deviceChannels * o.formatBytes) (left right : Nat → α) :
    ∃ data, o.packPlaybackRegionForFormat quantise q.run.pb.ring.data q.run.region left right = some data ∧
      (q.storeData data).run.Inv ∧
      (q.storeData data).run.regionBytes = o.encode quantise left right q.run.region.frames := by
  obtain ⟨s, hs⟩ : ∃ s, s = q.run := ⟨_, rfl⟩
  rw [← hs] at h hfits hstride ⊢
  refine ⟨_, packForFormat_eq ho hfits hstride s.pb.ring.data left right, ?_⟩
  have hsize := hfits.bytes_eq
  have hlen : (o.encode quantise left right s.region.frames).length = s.region.firstBytes + s.region.secondBytes := by
    rw [encode_length ho.pair, ← hstride, ← hfits.stride, hsize]
  refine ⟨?_, hs ▸ hfits.spans hlen s.pb.ring.data⟩
  -- the packing is a fill of both spans
  have hfirst : 0 + ((o.encode quantise left right s.region.frames).take s.region.firstBytes).length ≤
      s.region.firstBytes := by
    rw [List.length_take]
    omega
  have hsecond : 0 + ((o.encode quantise left right s.region.frames).drop s.region.firstBytes).length ≤
      s.region.secondBytes := by
    rw [List.length_drop]
    omega
  have hfilled := (h.step (.fillFirst 0 ((o.encode quantise left right s.region.frames).take s.region.firstBytes))).step
    (.fillSecond 0 ((o.encode quantise left right s.region.frames).drop s.region.firstBytes))
  simp only [PlaybackRun.step, if_pos hfirst, if_pos hsecond] at hfilled
  show PlaybackRun.Inv { q.run with pb := { q.run.pb with ring := { q.run.pb.ring with data := _ } } }
  rw [← hs]
  exact hfilled

open QuantumRun in
/-- `submitQuantum` is atomic. For every format that a start has validated, every block, both charging modes and
policies, and whatever the event thread and the control thread do between any two of its steps. False: the head, the
committed bytes and the written frames are as they were, and no credit was spent. True: the whole encoded block is
appended, its frames are counted, and its credit is spent exactly if charging was asked for, policy 1 was selected and
playback had started when the credit was taken. -/
theorem submitQuantum_atomic {sampleRate bitsPerSample bytesPerSample channels outputPair : Int}
    {playback capture : StreamFormat}
    (hstart : start sampleRate bitsPerSample bytesPerSample channels outputPair playback capture = some o)
    (hneg : NegotiatesPlayback ⟨sampleRate, bitsPerSample, channels, bytesPerSample⟩ playback)
    {s : QuantumRun w} (hinv : s.run.Inv) (hformat : s.run.pb.format = playback)
    (env : Nat → List InterleavedAct) (turns : List (List InterleavedAct × Bool)) (left right : Nat → α) (frames : Int)
    (chargeCredit : Bool) :
    let r := o.submitQuantumWith quantise env turns s left right frames chargeCredit
    (r.2 = false → Refused s r.1) ∧
    (r.2 = true → Published s r.1 (o.encode quantise left right frames.toNat) frames.toNat
      (r.1.debited chargeCredit frames)) := by
  obtain ⟨ho, hframe⟩ := frameStride_of_start hstart hneg
  intro r
  have h₀ := Kept.interfere hinv (env 0)
  simp only [r, submitQuantumWith]
  generalize s.interfere (env 0) = s₀ at *
  by_cases hargs : frames ≤ 0 ∨ frames > kMaxFramesPerWrite ∨ (!s₀.accepting) = true
  · rw [if_pos hargs]
    exact ⟨fun _ => h₀.refuse hinv, fun h => absurd h Bool.false_ne_true⟩
  rw [if_neg hargs]
  have hpos : 0 < frames := by omega
  -- the first test of the room
  have h₂ := (h₀.after (loadAdmission_kept env h₀.inv 1).1).disturbed (env 5)
  generalize s₀.loadAdmission env 1 = l at *
  generalize l.1.interfere (env 5) = s₂ at *
  by_cases hroom : s₂.accepting = true ∧ frames ≤ l.2.writableFrames
  swap
  · rw [if_neg hroom]
    exact ⟨fun _ => h₂.refuse hinv, fun h => absurd h Bool.false_ne_true⟩
  rw [if_pos hroom]
  -- the second one, with the region
  obtain ⟨hprepared, hregion, hfits⟩ := preparePlaybackWrite_kept env h₂.inv 6 frames
  have h₃ := h₂.after hprepared
  generalize s₂.preparePlaybackWrite env 6 frames = m at *
  by_cases hwhole : (m.2.frames : Int) = frames
  swap
  · rw [if_neg hwhole]
    exact ⟨fun _ => h₃.refuse hinv, fun h => absurd h Bool.false_ne_true⟩
  rw [if_pos hwhole]
  -- the charge
  obtain ⟨hcharged, hregion₄⟩ := charge_kept env h₃.inv hpos 10 turns chargeCredit
  have h₄ := h₃.after hcharged
  generalize m.1.charge env 10 turns frames chargeCredit = c at *
  have h₅ := h₄.disturbed (env 17)
  have hlocals := interfere_locals c.1 (env 17)
  simp only [locals, Prod.mk.injEq] at hlocals
  generalize c.1.interfere (env 17) = s₅ at *
  have hregion₅ : s₅.run.region = m.2 := hlocals.1.trans (hregion₄.trans hregion)
  have hfits₅ : s₅.run.region.Fits s₅.run.pb := by
    refine h₅.inv.region.resolve_left fun hempty => ?_
    rw [← hregion₅, hempty] at hwhole
    exact hpos.ne hwhole
  have hstride₅ : s₅.run.pb.stride = o.deviceChannels * o.formatBytes := by
    rw [Playback.stride, h₅.format, hformat, hframe]
  cases hpaid : c.2 with
  | false =>
    rw [hpaid, if_neg Bool.false_ne_true] at h₅
    exact ⟨fun _ => h₅.refuse hinv, fun h => absurd h Bool.false_ne_true⟩
  | true =>
    obtain ⟨data, hpack, hpacked, hbytes⟩ := pack_region quantise ho h₅.inv hfits₅ hstride₅ left right
    have hregionPos : 0 < s₅.run.region.frames := by
      rw [hregion₅]
      omega
    have hstridePos : 0 < s₅.run.region.frameStride := by
      rw [hfits₅.stride, hstride₅]
      exact ho.frame_pos
    obtain ⟨hpublished, hseen⟩ := h₅.publish env hinv hfits₅ hregionPos hstridePos hpacked hbytes (env 18) 19
    rw [hregion₅] at hpack hpublished hseen
    simp only [hpack]
    refine ⟨fun h => absurd h.symm Bool.false_ne_true, fun _ => ?_⟩
    -- what decided on the charge is what the call still knows at its end
    generalize QuantumRun.noteQuantumWritten _ env _ = last at *
    have hdebited : c.1.debited chargeCredit frames = last.debited chargeCredit frames := by
      rw [debited, debited, hseen.1, hseen.2, hlocals.2.1, hlocals.2.2]
    rw [hpaid, if_pos rfl, hdebited, show m.2.frames = frames.toNat by omega] at hpublished
    exact hpublished

open QuantumRun in
/-- Two frames on the second pair of a device with four channels. The control thread starts playback between the two
tests of the room, and a completion grants three frames between the load of the credit and the exchange. -/
theorem submitQuantum_atomic_interleaved :
    ∃ (o : DirectUsbOutput) (s : QuantumRun 64) (env : Nat → List InterleavedAct) (turns : List (List InterleavedAct × Bool)),
      let r := o.submitQuantumWith (fun bits x => BitVec.ofInt bits x) env turns s (fun i => -5 - i) (fun i => 7 + i) 2 true
      r.2 = true ∧ s.run.pb.playbackCredit = 0 ∧ r.1.run.pb.playbackCredit = 1 ∧
      Published s r.1
        [0, 0, 0, 0, 0, 0, 0, 0, 0, 0xFB, 0xFF, 0xFF, 0, 7, 0, 0, 0, 0, 0, 0, 0, 0, 0, 0, 0, 0xFA, 0xFF, 0xFF, 0, 8, 0, 0]
        2 2 := by
  let f : StreamFormat := (selectAltSetting (some uac1Quad) false ⟨48000, 24, 4, 4⟩).toOption.getD {}
  let o : DirectUsbOutput := { formatBits := 24, formatBytes := 4, deviceChannels := 4, outputPair := 1 }
  let p : Playback 64 := { ring := { Ring.assign .smallest with head := 4086, tail := 4086 }, format := f,
                           startupPrimeFrames := 8, playbackTargetFrames := 8 }
  let s : QuantumRun 64 := { run := { pb := p, region := {}, committed := [], drained := [] }, admissionPolicy := 1 }
  let env : Nat → List InterleavedAct := fun k => if k = 6 then [.policy true 8 8 0] else []
  let turns : List (List InterleavedAct × Bool) := [([.creditOut 3], false)]
  have hneg : NegotiatesPlayback ⟨48000, 24, 4, 4⟩ f := .generic (some uac1Quad) false rfl
  have hstart : start 48000 24 4 4 1 f f = some o := by
    rw [start, if_neg (by decide), if_neg (by decide)]
    rfl
  have hinv : s.run.Inv := ⟨by decide, .inl rfl, by decide⟩
  obtain ⟨-, hpublished⟩ := @submitQuantum_atomic Int o (fun bits x => BitVec.ofInt bits x) _ _ _ _ _ _ _ _ hstart hneg s
    hinv rfl env turns (fun i => -5 - i) (fun i => 7 + i) 2 true
  have htrue : (o.submitQuantumWith (fun bits x => BitVec.ofInt bits x) env turns s (fun i => -5 - i) (fun i => 7 + i) 2
      true).2 = true := by decide
  have hbytes : o.encode (fun bits x => BitVec.ofInt bits x) (fun i => -5 - (i : Int)) (fun i => 7 + (i : Int)) 2 =
      [0, 0, 0, 0, 0, 0, 0, 0, 0, 0xFB, 0xFF, 0xFF, 0, 7, 0, 0, 0, 0, 0, 0, 0, 0, 0, 0, 0, 0xFA, 0xFF, 0xFF, 0, 8, 0, 0] :=
    by decide
  have hspent : (o.submitQuantumWith (fun bits x => BitVec.ofInt bits x) env turns s (fun i => -5 - i) (fun i => 7 + i) 2
      true).1.debited true 2 = 2 := by decide
  have hblock := hpublished htrue
  rw [hspent, show (2 : Int).toNat = 2 from rfl, hbytes] at hblock
  exact ⟨o, s, env, turns, htrue, rfl, by decide, hblock⟩

theorem preparePlaybackWrite_quiet (s : QuantumRun w) (k : Nat) (frames : Int) :
    s.preparePlaybackWrite (fun _ => []) k frames =
      ({ s with run := { s.run with
          pb := (s.run.pb.preparePlaybackWrite frames).1, region := (s.run.pb.preparePlaybackWrite frames).2 } },
        (s.run.pb.preparePlaybackWrite frames).2) := by
  have hfields : { s.run.pb with
      playbackOverruns := (s.run.pb.preparePlaybackWrite frames).1.playbackOverruns
      playbackOverrunActive := (s.run.pb.preparePlaybackWrite frames).1.playbackOverrunActive } =
      (s.run.pb.preparePlaybackWrite frames).1 := by
    rw [Playback.preparePlaybackWrite]
    split
    · rfl
    · dsimp only
      split <;> rfl
  rw [← hfields]
  rfl

theorem takePlaybackCredit_quiet (s : QuantumRun w) (k : Nat) (frames : Int) :
    let r := s.takePlaybackCredit (fun _ => []) k [] frames
    (r.1.run.pb, r.2) = s.run.pb.takePlaybackCredit frames := by
  by_cases hframes : frames ≤ 0
  · simp only [QuantumRun.takePlaybackCredit, Playback.takePlaybackCredit, if_pos hframes]
  by_cases hstarted : s.run.pb.playbackStarted
  · by_cases hfloor : s.run.pb.playbackCredit - frames ≥ s.run.pb.creditFloor
    · have hfloor' := hfloor
      rw [Playback.creditFloor] at hfloor'
      simp [QuantumRun.takePlaybackCredit, Playback.takePlaybackCredit, hframes, QuantumRun.interfere, hstarted,
        QuantumRun.spendCredit, QuantumRun.creditLoop, hfloor, hfloor', QuantumRun.debit, QuantumRun.withPlayback]
    · have hfloor' := hfloor
      rw [Playback.creditFloor] at hfloor'
      simp [QuantumRun.takePlaybackCredit, Playback.takePlaybackCredit, hframes, QuantumRun.interfere, hstarted,
        QuantumRun.spendCredit, QuantumRun.creditLoop, hfloor, hfloor']
  · simp [QuantumRun.takePlaybackCredit, Playback.takePlaybackCredit, hframes, QuantumRun.interfere, hstarted]

theorem charge_quiet (s : QuantumRun w) (k : Nat) (frames : Int) (chargeCredit : Bool) :
    let r := s.charge (fun _ => []) k [] frames chargeCredit
    (r.1.run.pb, r.2) =
      if !chargeCredit ∨ s.admissionPolicy ≠ 1 then (s.run.pb, true) else s.run.pb.takePlaybackCredit frames := by
  cases chargeCredit with
  | false => rfl
  | true =>
    by_cases hpolicy : s.admissionPolicy ≠ 1
    · simp only [QuantumRun.charge, QuantumRun.interfere, Runs.run_nil]
      simp [hpolicy]
    · have := takePlaybackCredit_quiet { s with policySeen := some s.admissionPolicy } (k + 1) frames
      simp only [QuantumRun.charge, QuantumRun.interfere, Runs.run_nil]
      simpa [hpolicy] using this

/-- Where no other thread runs in between this is the call of the serialised model. -/
theorem submitQuantumWith_quiet (s : QuantumRun w) (left right : Nat → α) (frames : Int) (chargeCredit : Bool) :
    let r := o.submitQuantumWith quantise (fun _ => []) [] s left right frames chargeCredit
    (r.1.run.pb, r.2) =
      o.submitQuantum quantise s.run.pb s.accepting s.admissionPolicy left right frames chargeCredit := by
  by_cases hargs : frames ≤ 0 ∨ frames > kMaxFramesPerWrite ∨ (!s.accepting) = true
  · simp only [submitQuantumWith, submitQuantum, QuantumRun.interfere, Runs.run_nil, hargs, if_true]
    rfl
  have haccepting : s.accepting = true := by
    cases h : s.accepting
    · exact absurd (.inr (.inr (by rw [h]; rfl))) hargs
    · rfl
  simp only [submitQuantumWith, submitQuantum, QuantumRun.interfere, Runs.run_nil, hargs, if_false,
    QuantumRun.loadAdmission, preparePlaybackWrite_quiet]
  simp only [haccepting, true_and]
  by_cases hroom : frames ≤ s.run.pb.writableFrames
  swap
  · simp only [hroom, if_false]
    rfl
  by_cases hwhole : ((s.run.pb.preparePlaybackWrite frames).2.frames : Int) = frames
  swap
  · simp only [hroom, hwhole, if_true, if_false]
    rfl
  simp only [hroom, hwhole, if_true]
  have hcharge := charge_quiet { s with run := { s.run with
    pb := (s.run.pb.preparePlaybackWrite frames).1, region := (s.run.pb.preparePlaybackWrite frames).2 } }
    10 frames chargeCredit
  dsimp only at hcharge
  rw [haccepting] at hcharge
  rw [← hcharge]
  generalize QuantumRun.charge _ _ _ _ _ _ = c
  cases hpaid : c.2 with
  | false => rfl
  | true =>
    dsimp only
    cases o.packPlaybackRegionForFormat quantise c.1.run.pb.ring.data (s.run.pb.preparePlaybackWrite frames).2 left right
      with
    | none => rfl
    | some data =>
      dsimp only
      generalize (s.run.pb.preparePlaybackWrite frames).2 = region
      by_cases hargs : region.frames = 0 ∨ region.frameStride = 0
      · simp only [QuantumRun.commitPlaybackWrite, Playback.commitPlaybackWrite, if_pos hargs]
        rfl
      · simp only [QuantumRun.commitPlaybackWrite, Playback.commitPlaybackWrite, if_neg hargs]
        rfl

end DirectUsbOutput

end UacDriver
