import UacDriver.Session

/-!
# The adapter's stop against its writers

`DirectUsbOutput::stop` clears `accepting_` and waits until `activeWriters_` is zero; `submitQuantum` checks
`accepting_`, counts itself in, checks again, and only then touches the ring. Here every access to a shared
variable is a step, each ring byte its own, and any number of calls run beside the control thread and the
driver's other threads.

A call that publishes is counted, so the zero that ends the loop of `stop` says that none is publishing. From
there on `accepting_` is false, and a call that passed the first check long before fails the second.
-/

namespace UacDriver

open Circular Runs

/-- The arguments of one call: `packed` is what `packPlaybackRegionForFormat` writes, nothing if it fails. -/
structure Quantum where
  frames : Int
  packed : Option (List UInt8)
  chargeCredit : Bool

/-- Where a call of `submitQuantum` stands, named by the step that comes next. -/
inductive WriterPc (w : Nat) where
  | idle
  | enter (q : Quantum)
  | measure (q : Quantum)
  | recheck (q : Quantum) (writable : Nat)
  | prepare (q : Quantum)
  | pay (q : Quantum) (region : PlaybackWriteRegion w)
  | pack (region : PlaybackWriteRegion w) (bytes : List UInt8) (i : Nat)
  | commit (region : PlaybackWriteRegion w)
  | note
  | finish (submitted : Bool)

/-- One thread of writers: its place and, as history of its current or last call, how often it has changed
`activeWriters_` in either direction and what it returned. -/
structure Writer (w : Nat) where
  pc : WriterPc w := .idle
  incs : Nat := 0
  decs : Nat := 0
  result : Bool := false

/-- Where the control thread stands: in the wait loop of `stop`, behind it, or past the `startDuplex` of a
`start`, which begins with a `stop` of its own. -/
inductive ControlPc where
  | idle
  | draining (restart : Bool)
  | drained (restart : Bool)
  | starting
  deriving DecidableEq

structure QuantumRace (w : Nat) where
  pb : Playback w
  accepting : Bool := false
  /-- One for each thread inside `submitQuantum`. -/
  activeWriters : Nat := 0
  admissionPolicy : Nat := 0
  control : ControlPc := .idle
  writers : Nat → Writer w := fun _ => {}
  /-- History: `stop` has left its loop and no `start` has set `accepting_` since. -/
  quiesced : Bool := false

inductive QuantumAct (w : Nat) where
  /-- Thread `t` calls `submitQuantum` and makes the first check. -/
  | submit (t : Nat) (q : Quantum)
  /-- The next step of thread `t`'s call. -/
  | writer (t : Nat)
  | stop
  | start
  /-- The next step of the control thread; `ok` is what `startDuplex` and the format check answer. -/
  | control (ok : Bool)
  | requestStop
  | setAdmissionPolicy (policy : Nat)
  /-- Anything another thread of the driver does to the playback state. -/
  | drive (change : Playback w → Playback w)

/-- The credit condition of `submitQuantum`, evaluated from left to right. -/
def Playback.charge {w : Nat} (p : Playback w) (policy : Nat) (q : Quantum) : Playback w × Bool :=
  if !q.chargeCredit ∨ policy ≠ 1 then (p, true) else p.takePlaybackCredit q.frames

/-- What follows the credit: the packing, if it is paid and the format can be packed. -/
def WriterPc.paid {w : Nat} (region : PlaybackWriteRegion w) : Bool → Option (List UInt8) → WriterPc w
  | true, some bytes => .pack region bytes 0
  | _, _ => .finish false

/-- The ring byte that byte `i` of the packed frames goes to. -/
def PlaybackWriteRegion.cell {w : Nat} (region : PlaybackWriteRegion w) (i : Nat) : Nat :=
  if i < region.firstBytes then region.first + i else i - region.firstBytes

namespace QuantumRace

variable {w : Nat} (s : QuantumRace w)

def setWriter (t : Nat) (x : Writer w) : QuantumRace w := { s with writers := Function.update s.writers t x }

def goto (t : Nat) (pc : WriterPc w) : QuantumRace w := s.setWriter t { s.writers t with pc }

def submit (t : Nat) (q : Quantum) : QuantumRace w :=
  match (s.writers t).pc with
  | .idle =>
    s.setWriter t {
      pc := if q.frames ≤ 0 ∨ q.frames > kMaxFramesPerWrite ∨ !s.accepting then .idle else .enter q }
  | _ => s

def writerStep (t : Nat) : QuantumRace w :=
  match (s.writers t).pc with
  | .idle => s
  | .enter q =>
    { s with activeWriters := s.activeWriters + 1 }.setWriter t
      { s.writers t with pc := .measure q, incs := (s.writers t).incs + 1 }
  | .measure q => s.goto t (.recheck q s.pb.writableFrames)
  | .recheck q writable =>
    s.goto t (if s.accepting ∧ q.frames ≤ writable then .prepare q else .finish false)
  | .prepare q =>
    let prepared := s.pb.preparePlaybackWrite q.frames
    { s with pb := prepared.1 }.goto t
      (if prepared.2.frames = q.frames then .pay q prepared.2 else .finish false)
  | .pay q region =>
    let charged := s.pb.charge s.admissionPolicy q
    { s with pb := charged.1 }.goto t (.paid region charged.2 q.packed)
  | .pack region bytes i =>
    if i < region.firstBytes + region.secondBytes then
      { s with pb := s.pb.store (region.cell i) bytes[i]?.toList }.goto t (.pack region bytes (i + 1))
    else s.goto t (.commit region)
  | .commit region => { s with pb := s.pb.commitPlaybackWrite region }.goto t .note
  | .note => { s with pb := s.pb.noteQuantumWritten }.goto t (.finish true)
  | .finish submitted =>
    { s with activeWriters := s.activeWriters - 1 }.setWriter t
      { s.writers t with pc := .idle, decs := (s.writers t).decs + 1, result := submitted }

def controlStep (ok : Bool) : QuantumRace w :=
  match s.control with
  | .idle => s
  | .draining restart =>
    if s.activeWriters = 0 then { s with control := .drained restart, quiesced := true } else s
  | .drained restart => { s with control := if restart then .starting else .idle }
  | .starting =>
    if ok then { s with control := .idle, accepting := true, quiesced := false } else { s with control := .idle }

def step : QuantumAct w → QuantumRace w
  | .submit t q => s.submit t q
  | .writer t => s.writerStep t
  | .stop => if s.control = .idle then { s with control := .draining false, accepting := false } else s
  | .start => if s.control = .idle then { s with control := .draining true, accepting := false } else s
  | .control ok => s.controlStep ok
  | .requestStop => { s with accepting := false }
  | .setAdmissionPolicy policy => { s with admissionPolicy := policy }
  | .drive change => { s with pb := change s.pb }

@[simp] theorem goto_pb (t : Nat) (pc : WriterPc w) : (s.goto t pc).pb = s.pb := rfl

@[simp] theorem goto_policy (t : Nat) (pc : WriterPc w) : (s.goto t pc).admissionPolicy = s.admissionPolicy := rfl

@[simp] theorem goto_accepting (t : Nat) (pc : WriterPc w) : (s.goto t pc).accepting = s.accepting := rfl

@[simp] theorem goto_writer (t : Nat) (pc : WriterPc w) : (s.goto t pc).writers t = { s.writers t with pc } := by
  simp [goto, setWriter]

variable {s} in
theorem goto_self {t : Nat} {pc : WriterPc w} (hpc : (s.writers t).pc = pc) : s.goto t pc = s := by
  subst hpc
  simp [goto, setWriter]

end QuantumRace

/-! ### A call to itself -/

namespace Playback

variable {w : Nat}

/-- The ring after the bytes from `i` on have been packed. -/
def packFrom (region : PlaybackWriteRegion w) (bytes : List UInt8) (i : Nat) (p : Playback w) : Playback w :=
  (List.range' i (region.firstBytes + region.secondBytes - i)).foldl
    (fun p j => p.store (region.cell j) bytes[j]?.toList) p

theorem packFrom_of_lt {region : PlaybackWriteRegion w} {i : Nat} (hi : i < region.firstBytes + region.secondBytes)
    (bytes : List UInt8) (p : Playback w) :
    packFrom region bytes i p = packFrom region bytes (i + 1) (p.store (region.cell i) bytes[i]?.toList) := by
  have hlen : region.firstBytes + region.secondBytes - i = region.firstBytes + region.secondBytes - (i + 1) + 1 := by
    omega
  rw [packFrom, hlen, List.range'_succ, List.foldl_cons]
  rfl

theorem packFrom_of_ge {region : PlaybackWriteRegion w} {i : Nat} (hi : region.firstBytes + region.secondBytes ≤ i)
    (bytes : List UInt8) (p : Playback w) : packFrom region bytes i p = p := by
  rw [packFrom, Nat.sub_eq_zero_of_le hi]
  rfl

/-- Byte by byte, the packing fills the region. -/
theorem packFrom_zero (region : PlaybackWriteRegion w) (bytes : List UInt8) (p : Playback w) :
    packFrom region bytes 0 p = p.fillRegion region bytes := by
  have hpart : ∀ k, (List.range k).foldl (fun p j => p.store (region.cell j) bytes[j]?.toList) p =
      (p.store region.first (bytes.take (min k region.firstBytes))).store 0
        ((bytes.drop region.firstBytes).take (k - region.firstBytes)) := by
    intro k
    induction k with
    | zero => simp [store]
    | succ k ih =>
      rw [List.range_succ, List.foldl_append, ih, List.foldl_cons, List.foldl_nil]
      rcases Nat.lt_or_ge k region.firstBytes with hk | hk
      · have h₁ : min (k + 1) region.firstBytes = k + 1 := by omega
        have h₂ : k + 1 - region.firstBytes = 0 := by omega
        have h₃ : min k region.firstBytes = k := by omega
        have h₄ : k - region.firstBytes = 0 := by omega
        simp only [PlaybackWriteRegion.cell, hk, if_true, h₁, h₂, h₃, h₄, List.take_zero, store, blit_nil, blit_take_succ]
      · have h₁ : min (k + 1) region.firstBytes = region.firstBytes := by omega
        have h₂ : k + 1 - region.firstBytes = k - region.firstBytes + 1 := by omega
        have h₃ : min k region.firstBytes = region.firstBytes := by omega
        have h₄ : bytes[k]? = (bytes.drop region.firstBytes)[k - region.firstBytes]? := by
          rw [List.getElem?_drop]
          congr 1
          omega
        have hstep := blit_take_succ (blit p.ring.data region.first (bytes.take region.firstBytes)) 0
          (bytes.drop region.firstBytes) (k - region.firstBytes)
        rw [Nat.zero_add] at hstep
        simp only [PlaybackWriteRegion.cell, Nat.not_lt.2 hk, if_false, h₁, h₂, h₃, h₄, store, hstep]
  have hall := hpart (region.firstBytes + region.secondBytes)
  rw [List.range_eq_range'] at hall
  rw [packFrom, Nat.sub_zero, hall, fillRegion]
  have h₁ : min (region.firstBytes + region.secondBytes) region.firstBytes = region.firstBytes := by omega
  rw [h₁, Nat.add_sub_cancel_left]

/-- `submitQuantum` from the credit on. -/
def publish (p : Playback w) (policy : Nat) (q : Quantum) (region : PlaybackWriteRegion w) : Playback w × Bool :=
  match (p.charge policy q).2, q.packed with
  | true, some bytes =>
    ((((p.charge policy q).1.fillRegion region bytes).commitPlaybackWrite region).noteQuantumWritten, true)
  | _, _ => ((p.charge policy q).1, false)

/-- `submitQuantum` from the second check on. -/
def offer (p : Playback w) (policy : Nat) (q : Quantum) : Playback w × Bool :=
  let prepared := p.preparePlaybackWrite q.frames
  if prepared.2.frames = q.frames then prepared.1.publish policy q prepared.2 else (prepared.1, false)

end Playback

namespace QuantumRace

variable {w : Nat} {s : QuantumRace w} {t : Nat}

/-- Thread `t` runs its call to the end; it leaves the playback state as `pb` and returns `r`. -/
def Ends (s : QuantumRace w) (t : Nat) (pb : Playback w) (r : Bool) : Prop :=
  ∃ n, let s' := (fun s : QuantumRace w => s.writerStep t)^[n] s
    s'.pb = pb ∧ (s'.writers t).pc = .idle ∧ (s'.writers t).result = r

namespace Ends

variable {pb : Playback w} {r : Bool}

theorem of_step (h : (s.writerStep t).Ends t pb r) : s.Ends t pb r := by
  obtain ⟨n, hn⟩ := h
  exact ⟨n + 1, hn⟩

theorem finish (hpc : (s.writers t).pc = .finish r) : s.Ends t s.pb r :=
  ⟨1, by simp [writerStep, hpc, setWriter]⟩

theorem commit {region : PlaybackWriteRegion w} (hpc : (s.writers t).pc = .commit region) :
    s.Ends t (s.pb.commitPlaybackWrite region).noteQuantumWritten true := by
  have h₁ : s.writerStep t = { s with pb := s.pb.commitPlaybackWrite region }.goto t .note := by
    simp only [writerStep, hpc]
  have h₂ : (s.writerStep t).writerStep t =
      { s.writerStep t with pb := (s.writerStep t).pb.noteQuantumWritten }.goto t (.finish true) := by
    rw [writerStep]
    simp only [h₁, goto_writer]
  refine of_step (of_step ?_)
  have hend := finish (s := (s.writerStep t).writerStep t) (t := t) (r := true) (by rw [h₂, goto_writer])
  rw [h₂, goto_pb, h₁, goto_pb] at hend
  rw [h₂, h₁]
  exact hend

theorem pack {region : PlaybackWriteRegion w} {bytes : List UInt8} {i : Nat}
    (hpc : (s.writers t).pc = .pack region bytes i) :
    s.Ends t ((Playback.packFrom region bytes i s.pb).commitPlaybackWrite region).noteQuantumWritten true := by
  generalize hk : region.firstBytes + region.secondBytes - i = k
  induction k generalizing s i with
  | zero =>
    have hi : ¬i < region.firstBytes + region.secondBytes := by omega
    refine of_step ?_
    simp only [writerStep, hpc, hi, if_false]
    rw [Playback.packFrom_of_ge (by omega)]
    exact commit (s := s.goto t (.commit region)) (by rw [goto_writer])
  | succ k ih =>
    have hi : i < region.firstBytes + region.secondBytes := by omega
    refine of_step ?_
    simp only [writerStep, hpc, hi, if_true]
    rw [Playback.packFrom_of_lt hi]
    exact ih (by rw [goto_writer]) (by omega)

theorem goto_finish (s : QuantumRace w) (t : Nat) (r : Bool) : (s.goto t (.finish r)).Ends t s.pb r :=
  finish (s := s.goto t (.finish r)) (by rw [goto_writer])

theorem goto_pack (s : QuantumRace w) (t : Nat) (region : PlaybackWriteRegion w) (bytes : List UInt8) :
    (s.goto t (.pack region bytes 0)).Ends t
      ((s.pb.fillRegion region bytes).commitPlaybackWrite region).noteQuantumWritten true := by
  have hend := pack (s := s.goto t (.pack region bytes 0)) (t := t) (by rw [goto_writer])
  rw [Playback.packFrom_zero] at hend
  exact hend

theorem goto_pay (s : QuantumRace w) (t : Nat) (q : Quantum) (region : PlaybackWriteRegion w) :
    (s.goto t (.pay q region)).Ends t (s.pb.publish s.admissionPolicy q region).1
      (s.pb.publish s.admissionPolicy q region).2 := by
  refine of_step ?_
  rw [writerStep]
  simp only [goto_writer, goto_pb, goto_policy, Playback.publish]
  cases (s.pb.charge s.admissionPolicy q).2 with
  | false => exact goto_finish _ t false
  | true =>
    cases q.packed with
    | none => exact goto_finish _ t false
    | some bytes => exact goto_pack _ t region bytes

theorem goto_prepare (s : QuantumRace w) (t : Nat) (q : Quantum) :
    (s.goto t (.prepare q)).Ends t (s.pb.offer s.admissionPolicy q).1 (s.pb.offer s.admissionPolicy q).2 := by
  refine of_step ?_
  rw [writerStep]
  simp only [goto_writer, goto_pb, goto_policy, Playback.offer]
  by_cases hall : (s.pb.preparePlaybackWrite q.frames).2.frames = q.frames
  · simp only [hall, if_true]
    exact goto_pay _ t q _
  · simp only [hall, if_false]
    exact goto_finish _ t false

theorem goto_recheck (s : QuantumRace w) (t : Nat) (q : Quantum) (writable : Nat) :
    let ends := if s.accepting ∧ q.frames ≤ writable then s.pb.offer s.admissionPolicy q else (s.pb, false)
    (s.goto t (.recheck q writable)).Ends t ends.1 ends.2 := by
  refine of_step ?_
  rw [writerStep]
  simp only [goto_writer, goto_accepting]
  by_cases hgo : s.accepting = true ∧ q.frames ≤ writable
  · simp only [hgo, and_self, if_true]
    exact goto_prepare _ t q
  · simp only [hgo, if_false]
    exact goto_finish _ t false

theorem goto_measure (s : QuantumRace w) (t : Nat) (q : Quantum) :
    let ends := if s.accepting ∧ q.frames ≤ s.pb.writableFrames then s.pb.offer s.admissionPolicy q else (s.pb, false)
    (s.goto t (.measure q)).Ends t ends.1 ends.2 := by
  refine of_step ?_
  rw [writerStep]
  simp only [goto_writer, goto_pb]
  exact goto_recheck _ t q _

/-- A call that has passed the first check, with nobody else at work, is `Playback.submitQuantum`. -/
theorem enter {q : Quantum} (hpc : (s.writers t).pc = .enter q) (hlow : 0 < q.frames)
    (hhigh : q.frames ≤ kMaxFramesPerWrite) (haccept : s.accepting = true) :
    s.Ends t (s.pb.submitQuantum s.accepting s.admissionPolicy q.frames q.packed q.chargeCredit).1
      (s.pb.submitQuantum s.accepting s.admissionPolicy q.frames q.packed q.chargeCredit).2 := by
  have hoffer : s.pb.submitQuantum s.accepting s.admissionPolicy q.frames q.packed q.chargeCredit =
      if q.frames ≤ s.pb.writableFrames then s.pb.offer s.admissionPolicy q else (s.pb, false) := by
    have hargs : ¬(q.frames ≤ 0 ∨ q.frames > kMaxFramesPerWrite ∨ (!s.accepting) = true) := by
      simp only [haccept, Bool.not_true, Bool.false_eq_true, or_false]
      omega
    rw [Playback.submitQuantum, if_neg hargs]
    rfl
  have hmeasure := goto_measure (s.writerStep t) t q
  have hstep : (s.writerStep t).pb = s.pb ∧ (s.writerStep t).accepting = s.accepting ∧
      (s.writerStep t).admissionPolicy = s.admissionPolicy ∧ ((s.writerStep t).writers t).pc = .measure q := by
    simp [writerStep, hpc, setWriter]
  obtain ⟨hpb, hacc, hpolicy, hmeasuring⟩ := hstep
  simp only [goto_self hmeasuring, hpb, hacc, hpolicy, haccept, true_and] at hmeasure
  rw [hoffer]
  exact of_step hmeasure

/-- A call always returns, whatever the others have left behind. -/
theorem exists_end (s : QuantumRace w) (t : Nat) : ∃ n,
    (((fun s : QuantumRace w => s.writerStep t)^[n] s).writers t).pc = .idle := by
  have hend : ∀ {s : QuantumRace w} {pb : Playback w} {r : Bool}, s.Ends t pb r →
      ∃ n, (((fun s : QuantumRace w => s.writerStep t)^[n] s).writers t).pc = .idle :=
    fun ⟨n, hn⟩ => ⟨n, hn.2.1⟩
  cases hpc : (s.writers t).pc with
  | idle => exact ⟨0, hpc⟩
  | enter q =>
    have hmeasuring : ((s.writerStep t).writers t).pc = .measure q := by simp [writerStep, hpc, setWriter]
    have hmeasure := goto_measure (s.writerStep t) t q
    rw [goto_self hmeasuring] at hmeasure
    exact hend (of_step hmeasure)
  | measure q =>
    have hmeasure := goto_measure s t q
    rw [goto_self hpc] at hmeasure
    exact hend hmeasure
  | recheck q writable =>
    have hrecheck := goto_recheck s t q writable
    rw [goto_self hpc] at hrecheck
    exact hend hrecheck
  | prepare q =>
    have hprepare := goto_prepare s t q
    rw [goto_self hpc] at hprepare
    exact hend hprepare
  | pay q region =>
    have hpay := goto_pay s t q region
    rw [goto_self hpc] at hpay
    exact hend hpay
  | pack region bytes i => exact hend (pack hpc)
  | commit region => exact hend (commit hpc)
  | note =>
    have hnote : s.writerStep t = QuantumRace.goto { s with pb := s.pb.noteQuantumWritten } t (.finish true) := by
      simp only [writerStep, hpc]
    exact hend (of_step (hnote ▸ goto_finish _ t true))
  | finish submitted => exact hend (finish hpc)

end Ends

end QuantumRace

/-! ### The invariant -/

namespace WriterPc

variable {w : Nat}

/-- Between the increment and the decrement of `activeWriters_`. -/
def counted : WriterPc w → Bool
  | .idle => false
  | .enter _ => false
  | _ => true

/-- Past the second check and not yet done with the playback state. -/
def publishing : WriterPc w → Bool
  | .prepare _ => true
  | .pay _ _ => true
  | .pack _ _ _ => true
  | .commit _ => true
  | .note => true
  | _ => false

theorem paid_counted (region : PlaybackWriteRegion w) (ok : Bool) (packed : Option (List UInt8)) :
    (paid region ok packed).counted = true := by
  cases ok <;> cases packed <;> rfl

theorem counted_of_publishing {pc : WriterPc w} (h : pc.publishing = true) : pc.counted = true := by
  cases pc <;> first | rfl | cases h

end WriterPc

namespace Writer

variable {w : Nat}

/-- A call that is counted has incremented once and not decremented; one that has returned has done both or
neither. -/
structure Balanced (x : Writer w) : Prop where
  incs_le : x.incs ≤ 1
  counted : x.pc.counted = true → x.incs = 1 ∧ x.decs = 0
  uncounted : x.pc.counted = false → x.decs = x.incs
  entering : ∀ q, x.pc = .enter q → x.incs = 0

/-- A step inside the counted part. -/
theorem Balanced.goto {x : Writer w} (h : x.Balanced) (hx : x.pc.counted = true) {pc : WriterPc w}
    (hpc : pc.counted = true) : Balanced { x with pc } := by
  refine ⟨h.incs_le, fun _ => h.counted hx, fun hn => ?_, fun q hq => ?_⟩
  · rw [hpc] at hn
    cases hn
  · have hq : pc = .enter q := hq
    rw [hq] at hpc
    cases hpc

end Writer

namespace QuantumRace

variable {w : Nat} {s : QuantumRace w}

structure Inv (s : QuantumRace w) : Prop where
  counted : ∃ T : Finset Nat, (∀ t, t ∈ T ↔ (s.writers t).pc.counted = true) ∧ s.activeWriters = T.card
  control : s.control ≠ .idle → s.accepting = false
  quiesced : s.quiesced = true → s.accepting = false ∧ ∀ t, (s.writers t).pc.publishing = false
  balanced : ∀ t, (s.writers t).Balanced

theorem Inv.start (pb : Playback w) : Inv { pb } := by
  refine ⟨⟨∅, fun t => ?_, rfl⟩, fun h => absurd rfl h, fun h => (by cases h), fun t => ?_⟩
  · exact ⟨fun h => absurd h (Finset.notMem_empty t), fun h => (by cases h)⟩
  · exact ⟨Nat.zero_le _, fun h => (by cases h), fun _ => rfl, fun _ h => (by cases h)⟩

namespace Inv

/-- Thread `t` goes on to `x`; `T` are the threads counted after it. -/
theorem move (h : s.Inv) {t : Nat} {x : Writer w} {s' : QuantumRace w} (hwriters : s'.writers = Function.update s.writers t x)
    (hcounted : ∃ T : Finset Nat, (∀ u, u ∈ T ↔ (Function.update s.writers t x u).pc.counted = true) ∧
      s'.activeWriters = T.card)
    (hcontrol : s'.control = s.control) (haccepting : s'.accepting = s.accepting) (hquiesced : s'.quiesced = s.quiesced)
    (hpub : s.quiesced = true → x.pc.publishing = false) (hbal : x.Balanced) : s'.Inv := by
  refine ⟨?_, ?_, ?_, ?_⟩
  · rw [hwriters]
    exact hcounted
  · rw [hcontrol, haccepting]
    exact h.control
  · rw [hquiesced, haccepting, hwriters]
    intro hq
    refine ⟨(h.quiesced hq).1, fun u => ?_⟩
    by_cases hu : u = t
    · rw [hu, Function.update_self]
      exact hpub hq
    · rw [Function.update_of_ne hu]
      exact (h.quiesced hq).2 u
  · rw [hwriters]
    intro u
    by_cases hu : u = t
    · rw [hu, Function.update_self]
      exact hbal
    · rw [Function.update_of_ne hu]
      exact h.balanced u

/-- A step that neither enters nor leaves the counted part. -/
theorem keep (h : s.Inv) {t : Nat} {x : Writer w} {s' : QuantumRace w} (hwriters : s'.writers = Function.update s.writers t x)
    (hsame : x.pc.counted = (s.writers t).pc.counted) (hactive : s'.activeWriters = s.activeWriters)
    (hcontrol : s'.control = s.control) (haccepting : s'.accepting = s.accepting) (hquiesced : s'.quiesced = s.quiesced)
    (hpub : s.quiesced = true → x.pc.publishing = false) (hbal : x.Balanced) : s'.Inv := by
  obtain ⟨T, hT, hcard⟩ := h.counted
  refine h.move hwriters ⟨T, fun u => ?_, hactive.trans hcard⟩ hcontrol haccepting hquiesced hpub hbal
  by_cases hu : u = t
  · rw [hu, Function.update_self, hsame]
    exact hT t
  · rw [Function.update_of_ne hu]
    exact hT u

/-- A counted call goes on inside the counted part; it publishes next only while it may. -/
theorem goto (h : s.Inv) {t : Nat} (hx : (s.writers t).pc.counted = true) {pc : WriterPc w} (hpc : pc.counted = true)
    (hpub : s.quiesced = true → pc.publishing = false) (pb : Playback w) : ({ s with pb }.goto t pc).Inv :=
  h.keep (t := t) (x := { s.writers t with pc }) rfl (hpc.trans hx.symm) rfl rfl rfl rfl hpub
    ((h.balanced t).goto hx hpc)

/-- A publishing call is not there once `stop` has left its loop. -/
theorem publish (h : s.Inv) {t : Nat} (hx : (s.writers t).pc.publishing = true) {pc : WriterPc w} (hpc : pc.counted = true)
    (pb : Playback w) : ({ s with pb }.goto t pc).Inv := by
  refine h.goto (WriterPc.counted_of_publishing hx) hpc (fun hq => ?_) pb
  have hnot := (h.quiesced hq).2 t
  rw [hx] at hnot
  cases hnot

theorem submit (h : s.Inv) (t : Nat) (q : Quantum) : (s.submit t q).Inv := by
  unfold QuantumRace.submit
  split
  · rename_i hpc
    have hcounted : (s.writers t).pc.counted = false := by rw [hpc]; rfl
    split
    · refine h.keep (t := t) (x := { pc := .idle }) rfl hcounted.symm rfl rfl rfl rfl (fun _ => rfl) ?_
      exact ⟨Nat.zero_le _, fun h => (by cases h), fun _ => rfl, fun _ h => (by cases h)⟩
    · refine h.keep (t := t) (x := { pc := .enter q }) rfl hcounted.symm rfl rfl rfl rfl (fun _ => rfl) ?_
      exact ⟨Nat.zero_le _, fun h => (by cases h), fun _ => rfl, fun _ _ => rfl⟩
  · exact h

theorem writerStep (h : s.Inv) (t : Nat) : (s.writerStep t).Inv := by
  have hbal := h.balanced t
  obtain ⟨T, hT, hcard⟩ := h.counted
  unfold QuantumRace.writerStep
  split
  · exact h
  · -- the increment
    rename_i q hpc
    have hout : (s.writers t).pc.counted = false := by rw [hpc]; rfl
    have ht : t ∉ T := fun hin => by rw [hT t, hout] at hin; cases hin
    have hincs := hbal.entering q hpc
    refine h.move (t := t) rfl ⟨insert t T, fun u => ?_, ?_⟩ rfl rfl rfl (fun _ => rfl) ?_
    · by_cases hu : u = t
      · subst hu
        simp [WriterPc.counted]
      · simp [hu, hT u]
    · show s.activeWriters + 1 = _
      rw [Finset.card_insert_of_notMem ht, hcard]
    · refine ⟨?_, fun _ => ⟨?_, ?_⟩, fun hn => (by cases hn), fun _ hq => (by cases hq)⟩
      · show (s.writers t).incs + 1 ≤ 1
        omega
      · show (s.writers t).incs + 1 = 1
        omega
      · exact (hbal.uncounted hout).trans hincs
  · rename_i q hpc
    exact h.goto (by rw [hpc]; rfl) rfl (fun _ => rfl) s.pb
  · -- the second check: `accepting_` is false once `stop` has left its loop
    rename_i q writable hpc
    refine h.goto (by rw [hpc]; rfl) ?_ (fun hq => ?_) s.pb
    · split <;> rfl
    · have hno : ¬(s.accepting = true ∧ q.frames ≤ writable) := fun hc => by
        rw [(h.quiesced hq).1] at hc
        cases hc.1
      rw [if_neg hno]
      rfl
  · rename_i q hpc
    refine h.publish (by rw [hpc]; rfl) ?_ _
    split <;> rfl
  · rename_i q region hpc
    exact h.publish (by rw [hpc]; rfl) (WriterPc.paid_counted _ _ _) _
  · rename_i region bytes i hpc
    split
    · exact h.publish (by rw [hpc]; rfl) rfl _
    · exact h.publish (by rw [hpc]; rfl) rfl s.pb
  · rename_i region hpc
    exact h.publish (by rw [hpc]; rfl) rfl _
  · rename_i hpc
    exact h.publish (by rw [hpc]; rfl) rfl _
  · -- the decrement
    rename_i submitted hpc
    have hin : (s.writers t).pc.counted = true := by rw [hpc]; rfl
    obtain ⟨hincs, hdecs⟩ := hbal.counted hin
    refine h.move (t := t) rfl ⟨T.erase t, fun u => ?_, ?_⟩ rfl rfl rfl (fun _ => rfl) ?_
    · by_cases hu : u = t
      · subst hu
        simp [WriterPc.counted]
      · simp [hu, hT u]
    · show s.activeWriters - 1 = _
      rw [Finset.card_erase_of_mem ((hT t).2 hin), hcard]
    · refine ⟨hbal.incs_le, fun hn => (by cases hn), fun _ => ?_, fun _ hq => (by cases hq)⟩
      show (s.writers t).decs + 1 = (s.writers t).incs
      omega

theorem controlStep (h : s.Inv) (ok : Bool) : (s.controlStep ok).Inv := by
  unfold QuantumRace.controlStep
  split
  · exact h
  · -- the loop of `stop` ends when nobody is counted
    rename_i restart hpc
    have hoff : s.accepting = false := h.control (by rw [hpc]; exact fun he => by cases he)
    split
    · rename_i hzero
      obtain ⟨T, hT, hcard⟩ := h.counted
      have hempty : T = ∅ := Finset.card_eq_zero.1 (hcard.symm.trans hzero)
      refine ⟨⟨T, hT, hcard⟩, fun _ => hoff, fun _ => ⟨hoff, fun t => ?_⟩, h.balanced⟩
      by_contra hp
      have hmem := (hT t).2 (WriterPc.counted_of_publishing (by simpa using hp))
      rw [hempty] at hmem
      exact absurd hmem (Finset.notMem_empty t)
    · exact h
  · rename_i restart hpc
    have hoff : s.accepting = false := h.control (by rw [hpc]; exact fun he => by cases he)
    exact ⟨h.counted, fun _ => hoff, h.quiesced, h.balanced⟩
  · split
    · exact ⟨h.counted, fun hc => absurd rfl hc, fun hq => (by cases hq), h.balanced⟩
    · exact ⟨h.counted, fun hc => absurd rfl hc, h.quiesced, h.balanced⟩

theorem step (h : s.Inv) (a : QuantumAct w) : (s.step a).Inv := by
  cases a with
  | submit t q => exact h.submit t q
  | writer t => exact h.writerStep t
  | stop =>
    simp only [QuantumRace.step]
    split
    · exact ⟨h.counted, fun _ => rfl, fun hq => ⟨rfl, (h.quiesced hq).2⟩, h.balanced⟩
    · exact h
  | start =>
    simp only [QuantumRace.step]
    split
    · exact ⟨h.counted, fun _ => rfl, fun hq => ⟨rfl, (h.quiesced hq).2⟩, h.balanced⟩
    · exact h
  | control ok => exact h.controlStep ok
  | requestStop => exact ⟨h.counted, fun _ => rfl, fun hq => ⟨rfl, (h.quiesced hq).2⟩, h.balanced⟩
  | setAdmissionPolicy policy => exact ⟨h.counted, h.control, h.quiesced, h.balanced⟩
  | drive change => exact ⟨h.counted, h.control, h.quiesced, h.balanced⟩

end Inv

/-- Only a publishing call touches the playback state. -/
theorem writerStep_pb {t : Nat} (h : (s.writers t).pc.publishing = false) : (s.writerStep t).pb = s.pb := by
  unfold QuantumRace.writerStep
  split
  all_goals first
    | rfl
    | rename_i hpc
      rw [hpc] at h
      cases h

/-- However the control thread, the writers and the driver's other threads interleave: once `stop` has left its
wait loop no call of `submitQuantum` touches the ring or commits a region until a `start` accepts again; every
call changes `activeWriters_` once up and once down or not at all, and every call returns. -/
theorem stop_excludes_writers (pb : Playback w) (acts : List (QuantumAct w)) :
    let s := run QuantumRace.step { pb } acts
    (s.quiesced = true → ∀ t q, (s.step (.writer t)).pb = s.pb ∧ (s.step (.submit t q)).pb = s.pb) ∧
    (∀ t, (s.writers t).Balanced) ∧
    ∀ t, ∃ n, (((fun s : QuantumRace w => s.step (.writer t))^[n] s).writers t).pc = .idle := by
  intro s
  have hinv : s.Inv := run_invariant (fun _ a h => h.step a) (Inv.start pb) acts
  refine ⟨fun hq t q => ⟨?_, ?_⟩, hinv.balanced, Ends.exists_end s⟩
  · exact writerStep_pb ((hinv.quiesced hq).2 t)
  · show (s.submit t q).pb = s.pb
    unfold QuantumRace.submit
    split <;> rfl

end QuantumRace

end UacDriver
