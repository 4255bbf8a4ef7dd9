import UacDriver.FlightRecorder
import Mathlib.Algebra.BigOperators.Group.Finset.Piecewise
import Mathlib.Data.Fintype.Card

/-!
# Concurrent producers of the flight recorder

`record` as its producers run it: the loads of the three gates, the `fetch_add` that claims a ticket, the stores of the
payload one field at a time, the store of the sequence number, and the freeze. Any number of threads record at once. As
long as no ticket is claimed a whole lap ahead of one that is still being written, a slot tells by its sequence number
whether its ticket has been written, and once the producers have returned the recorder holds the log of all claims.
-/

namespace UacDriver

open Runs Circular

namespace PacketFlightRecorder

/-- The payload of a slot, stored field by field. -/
inductive Field where
  | timestampNs
  | a
  | b
  | ringFrames
  | queuedFrames
  | event
  deriving DecidableEq

def Field.store (f : Field) (e : Entry) (slot : Record) : Record :=
  match f with
  | timestampNs => { slot with timestampNs := e.timestampNs }
  | a => { slot with a := e.a }
  | b => { slot with b := e.b }
  | ringFrames => { slot with ringFrames := e.ringFrames }
  | queuedFrames => { slot with queuedFrames := e.queuedFrames }
  | event => { slot with event := e.event }

def payload : List Field := [.timestampNs, .a, .b, .ringFrames, .queuedFrames, .event]

def storeAll (e : Entry) (rest : List Field) (slot : Record) : Record := rest.foldl (fun slot f => f.store e slot) slot

/-- Where a producer is in `record`. -/
inductive Pc where
  | idle
  | loadFrozen (e : Entry)
  | loadMask (e : Entry)
  | claim (e : Entry)
  /-- The stores left to make; with none left, the sequence number is next. -/
  | store (e : Entry) (sequence : UInt64) (rest : List Field)
  | trigger (e : Entry)
  deriving DecidableEq

/-- The call that has not come past the gates. -/
def Pc.pending : Pc → List Entry
  | loadFrozen e | loadMask e | claim e => [e]
  | idle | store .. | trigger _ => []

def Pc.claims : Pc → Bool
  | claim _ => true
  | _ => false

/-- The ticket being written. -/
def Pc.ticket : Pc → Option UInt64
  | store _ sequence _ => some sequence
  | _ => none

/-- Past the frozen flag, but with no ticket yet. -/
def Pc.passed : Pc → Bool
  | loadMask _ | claim _ => true
  | _ => false

/-- The recorder with its producers. -/
structure Shared (ι : Type*) where
  recorder : PacketFlightRecorder
  pcs : ι → Pc := fun _ => .idle
  /-- History: the calls made and the tickets claimed, in order. -/
  calls : List (ι × Entry) := []
  claims : List (ι × Entry) := []

inductive ProducerAct (ι : Type*) where
  /-- `record` is called and loads `enabled_`. -/
  | call (t : ι) (e : Entry)
  | advance (t : ι)

namespace Shared

variable {ι : Type*} [DecidableEq ι] (s : Shared ι)

def goto (t : ι) (pc : Pc) : Shared ι := { s with pcs := Function.update s.pcs t pc }

def slot (sequence : UInt64) : Nat := sequence.toNat &&& s.recorder.mask

/-- A store to the slot of a ticket. -/
def write (sequence : UInt64) (f : Record → Record) : Shared ι :=
  { s with recorder := { s.recorder with
      records := Function.update s.recorder.records (s.slot sequence) (f (s.recorder.records (s.slot sequence))) } }

def advance (t : ι) : Shared ι :=
  match s.pcs t with
  | .idle => s
  | .loadFrozen e => s.goto t (if s.recorder.frozen then .idle else .loadMask e)
  | .loadMask e =>
    s.goto t (if s.recorder.eventMask ≠ 0 ∧ s.recorder.eventMask &&& maskOf e.event = 0 then .idle else .claim e)
  | .claim e =>
    ({ s with
      recorder := { s.recorder with nextSequence := s.recorder.nextSequence + 1 }
      claims := s.claims ++ [(t, e)] }).goto t (.store e s.recorder.nextSequence payload)
  | .store e sequence (f :: rest) => (s.write sequence (f.store e)).goto t (.store e sequence rest)
  | .store e sequence [] => (s.write sequence fun slot => { slot with sequence := sequence + 1 }).goto t (.trigger e)
  | .trigger e =>
    ({ s with recorder := { s.recorder with
      frozen := if e.event = s.recorder.freezeTrigger then true else s.recorder.frozen } }).goto t .idle

def step : ProducerAct ι → Shared ι
  | .call t e =>
    match s.pcs t with
    | .idle =>
      ({ s with calls := s.calls ++ [(t, e)] }).goto t (if s.recorder.enabled then .loadFrozen e else .idle)
    | _ => s
  | .advance t => s.advance t

/-- The tickets in order, behind those of the log so far. -/
def log (past : List Entry) : List Entry := past ++ s.claims.map Prod.snd

/-- Nobody is still writing ticket `i`. -/
def Finished (i : Nat) : Prop := ∀ t e sequence rest, s.pcs t = .store e sequence rest → sequence ≠ UInt64.ofNat i

/-- The calls of one thread, or its tickets. -/
def ofThread (t : ι) (l : List (ι × Entry)) : List Entry := (l.filter fun c => c.1 = t).map Prod.snd

/-- No ticket is claimed a whole lap ahead of one that is still being written. -/
def Unlapped : ProducerAct ι → Prop
  | .call _ _ => True
  | .advance t => (s.pcs t).claims = true → ∀ t', ∀ sequence ∈ (s.pcs t').ticket,
      s.recorder.nextSequence.toNat < sequence.toNat + s.recorder.capacity

instance [Fintype ι] : (a : ProducerAct ι) → Decidable (s.Unlapped a)
  | .call _ _ => isTrue trivial
  | .advance t =>
    -- a ticket is looked up at its producer, not among all numbers of 64 bits
    let _ (t' : ι) : Decidable (∀ sequence ∈ (s.pcs t').ticket,
        s.recorder.nextSequence.toNat < sequence.toNat + s.recorder.capacity) := Option.decidableForallMem ..
    inferInstanceAs (Decidable ((s.pcs t).claims = true → ∀ t', ∀ sequence ∈ (s.pcs t').ticket,
      s.recorder.nextSequence.toNat < sequence.toNat + s.recorder.capacity))

/-- The slot of a ticket that `e` is being written to. -/
structure Writing (past : List Entry) (e : Entry) (sequence : UInt64) (rest : List Field) (i : Nat) : Prop where
  ticket : sequence = UInt64.ofNat i
  entry : (s.log past)[i]? = some e
  live : (s.log past).length ≤ i + s.recorder.capacity
  unpublished : (s.recorder.records (i % s.recorder.capacity)).sequence ≠ UInt64.ofNat (i + 1)
  /-- The stores that are left complete the record. -/
  completes : { storeAll e rest (s.recorder.records (i % s.recorder.capacity)) with sequence := UInt64.ofNat (i + 1) } =
    e.toRecord i

structure Inv (past : List Entry) : Prop where
  capacity : ∃ k ≤ 20, s.recorder.capacity = 2 ^ k
  mask : s.recorder.mask = s.recorder.capacity - 1
  reserved : ∀ i, (s.recorder.records i).reserved = 0
  count : s.recorder.nextSequence = UInt64.ofNat (s.log past).length
  unwritten : ∀ i, (s.log past).length ≤ i → i < s.recorder.capacity → (s.recorder.records i).sequence = 0
  writing : ∀ t e sequence rest, s.pcs t = .store e sequence rest → ∃ i, s.Writing past e sequence rest i
  apart : ∀ t t' e e' sequence rest rest', s.pcs t = .store e sequence rest → s.pcs t' = .store e' sequence rest' → t = t'
  whole : ∀ i e, (s.log past)[i]? = some e → (s.log past).length ≤ i + s.recorder.capacity → s.Finished i →
    s.recorder.records (i % s.recorder.capacity) = e.toRecord i

end Shared

namespace Shared.Inv

variable {ι : Type*} [DecidableEq ι] {s s' : Shared ι} {past : List Entry}

omit [DecidableEq ι] in
theorem slot_eq (h : s.Inv past) (i : Nat) : s.slot (UInt64.ofNat i) = i % s.recorder.capacity := by
  obtain ⟨k, hk, hcap⟩ := h.capacity
  rw [slot, h.mask, UInt64.toNat_ofNat', hcap, Nat.and_two_pow_sub_one_eq_mod,
    Nat.mod_mod_of_dvd _ (Nat.pow_dvd_pow 2 (by omega))]

omit [DecidableEq ι] in
theorem capacity_pos (h : s.Inv past) : 0 < s.recorder.capacity := by
  obtain ⟨k, -, hcap⟩ := h.capacity
  rw [hcap]
  exact Nat.two_pow_pos k

omit [DecidableEq ι] in
/-- Tickets of one lap have slots of their own. -/
theorem slots_apart {i j : Nat} {e e' : Entry} (hi : (s.log past)[i]? = some e) (hj : (s.log past)[j]? = some e')
    (hlive : (s.log past).length ≤ i + s.recorder.capacity) (hlive' : (s.log past).length ≤ j + s.recorder.capacity)
    (hne : i ≠ j) : i % s.recorder.capacity ≠ j % s.recorder.capacity := by
  have hi := (List.getElem?_eq_some_iff.1 hi).1
  have hj := (List.getElem?_eq_some_iff.1 hj).1
  rcases Nat.lt_or_gt_of_ne hne with hlt | hgt
  · exact slot_ne hlt (by omega)
  · exact (slot_ne hgt (by omega)).symm

/-- A step outside the stores: the records stay, and no thread begins or ends to write. -/
theorem quiet (h : s.Inv past) {t : ι} {pc : Pc} (hfrom : ∀ e sequence rest, s.pcs t ≠ .store e sequence rest)
    (hto : ∀ e sequence rest, pc ≠ .store e sequence rest) (hpcs : s'.pcs = Function.update s.pcs t pc)
    (hrecords : s'.recorder.records = s.recorder.records) (hcapacity : s'.recorder.capacity = s.recorder.capacity)
    (hmask : s'.recorder.mask = s.recorder.mask) (hnext : s'.recorder.nextSequence = s.recorder.nextSequence)
    (hclaims : s'.claims = s.claims) : s'.Inv past := by
  have hlog : s'.log past = s.log past := by rw [log, log, hclaims]
  have hstore (t' : ι) (e : Entry) (sequence : UInt64) (rest : List Field) :
      s'.pcs t' = .store e sequence rest ↔ s.pcs t' = .store e sequence rest := by
    rw [hpcs]
    by_cases ht : t' = t
    · subst ht
      rw [Function.update_self]
      exact ⟨fun heq => absurd heq (hto e sequence rest), fun heq => absurd heq (hfrom e sequence rest)⟩
    · rw [Function.update_of_ne ht]
  refine ⟨?_, ?_, ?_, ?_, ?_, ?_, ?_, ?_⟩
  · rw [hcapacity]
    exact h.capacity
  · rw [hmask, hcapacity]
    exact h.mask
  · rw [hrecords]
    exact h.reserved
  · rw [hnext, hlog]
    exact h.count
  · rw [hlog, hcapacity, hrecords]
    exact h.unwritten
  · intro t' e sequence rest hpc
    obtain ⟨i, hw⟩ := h.writing t' e sequence rest ((hstore ..).1 hpc)
    refine ⟨i, hw.ticket, ?_, ?_, ?_, ?_⟩
    · rw [hlog]
      exact hw.entry
    · rw [hlog, hcapacity]
      exact hw.live
    · rw [hrecords, hcapacity]
      exact hw.unpublished
    · rw [hrecords, hcapacity]
      exact hw.completes
  · intro t₁ t₂ e e' sequence rest rest' h₁ h₂
    exact h.apart t₁ t₂ e e' sequence rest rest' ((hstore ..).1 h₁) ((hstore ..).1 h₂)
  · intro i e hi hlive hfinished
    rw [hlog] at hi hlive
    rw [hcapacity] at hlive
    rw [hrecords, hcapacity]
    exact h.whole i e hi hlive fun t' e' sequence rest hpc => hfinished t' e' sequence rest ((hstore ..).2 hpc)

/-- A store to the slot of the ticket that thread `t` is writing. -/
theorem written (h : s.Inv past) (hlen : (s.log past).length < 2 ^ 64) {t : ι} {e : Entry} {sequence : UInt64}
    {rest : List Field} (hpc : s.pcs t = .store e sequence rest) {f : Record → Record} {pc : Pc}
    (hreserved : ∀ slot, (f slot).reserved = slot.reserved)
    (hto : ∀ i, s.Writing past e sequence rest i →
      let slot := f (s.recorder.records (i % s.recorder.capacity))
      (∃ rest', pc = .store e sequence rest' ∧ slot.sequence ≠ UInt64.ofNat (i + 1) ∧
        { storeAll e rest' slot with sequence := UInt64.ofNat (i + 1) } = e.toRecord i) ∨
      (∀ e sequence rest, pc ≠ .store e sequence rest) ∧ slot = e.toRecord i) :
    ((s.write sequence f).goto t pc).Inv past := by
  obtain ⟨i, hw⟩ := h.writing t e sequence rest hpc
  have hslot : s.slot sequence = i % s.recorder.capacity := by rw [hw.ticket, h.slot_eq]
  have hi : i < (s.log past).length := (List.getElem?_eq_some_iff.1 hw.entry).1
  obtain ⟨s', hs'⟩ : ∃ s', s' = (s.write sequence f).goto t pc := ⟨_, rfl⟩
  have hcapacity : s'.recorder.capacity = s.recorder.capacity := by rw [hs']; rfl
  have hlog : s'.log past = s.log past := by rw [hs']; rfl
  have hself : s'.recorder.records (i % s.recorder.capacity) = f (s.recorder.records (i % s.recorder.capacity)) := by
    rw [hs', ← hslot]
    exact Function.update_self ..
  have hrest {k : Nat} (hk : k ≠ i % s.recorder.capacity) : s'.recorder.records k = s.recorder.records k := by
    rw [hs']
    exact Function.update_of_ne (hslot ▸ hk) ..
  have hpc₁ : s'.pcs t = pc := by
    rw [hs']
    exact Function.update_self ..
  have hpcs {t' : ι} (ht : t' ≠ t) : s'.pcs t' = s.pcs t' := by
    rw [hs']
    exact Function.update_of_ne ht ..
  -- another thread writes another ticket of the lap
  have hother {t' : ι} {e' : Entry} {sequence' : UInt64} {rest' : List Field} (ht : t' ≠ t)
      (hpc' : s.pcs t' = .store e' sequence' rest') : sequence' ≠ sequence := by
    rintro rfl
    exact ht (h.apart t' t e' e sequence' rest' rest hpc' hpc)
  have hmask : s'.recorder.mask = s.recorder.mask := by rw [hs']; rfl
  have hnext : s'.recorder.nextSequence = s.recorder.nextSequence := by rw [hs']; rfl
  rw [← hs']
  refine ⟨?_, ?_, ?_, ?_, ?_, ?_, ?_, ?_⟩
  · rw [hcapacity]
    exact h.capacity
  · rw [hmask, hcapacity]
    exact h.mask
  · intro j
    by_cases hj : j = i % s.recorder.capacity
    · rw [hj, hself, hreserved]
      exact h.reserved _
    · rw [hrest hj]
      exact h.reserved j
  · rw [hnext, hlog]
    exact h.count
  · intro j hj hcap
    rw [hlog] at hj
    rw [hcapacity] at hcap
    have hlt : i % s.recorder.capacity < j := (Nat.mod_le _ _).trans_lt (hi.trans_le hj)
    rw [hrest hlt.ne']
    exact h.unwritten j hj hcap
  · intro t' e' sequence' rest' hpc'
    by_cases ht : t' = t
    · subst ht
      rw [hpc₁] at hpc'
      rcases hto i hw with ⟨rest'', heq, hunpublished, hcompletes⟩ | ⟨hno, -⟩
      · rw [heq] at hpc'
        cases hpc'
        refine ⟨i, hw.ticket, ?_, ?_, ?_, ?_⟩
        · rw [hlog]
          exact hw.entry
        · rw [hlog, hcapacity]
          exact hw.live
        · rw [hcapacity, hself]
          exact hunpublished
        · rw [hcapacity, hself]
          exact hcompletes
      · exact absurd hpc' (hno _ _ _)
    · rw [hpcs ht] at hpc'
      obtain ⟨j, hw'⟩ := h.writing t' e' sequence' rest' hpc'
      have hne : j % s.recorder.capacity ≠ i % s.recorder.capacity := by
        refine slots_apart hw'.entry hw.entry hw'.live hw.live ?_
        rintro rfl
        exact hother ht hpc' (hw'.ticket.trans hw.ticket.symm)
      refine ⟨j, hw'.ticket, ?_, ?_, ?_, ?_⟩
      · rw [hlog]
        exact hw'.entry
      · rw [hlog, hcapacity]
        exact hw'.live
      · rw [hcapacity, hrest hne]
        exact hw'.unpublished
      · rw [hcapacity, hrest hne]
        exact hw'.completes
  · -- the thread is at the ticket it was at, or at none
    have hback {t' : ι} {e' : Entry} {sequence' : UInt64} {rest' : List Field}
        (hpc' : s'.pcs t' = .store e' sequence' rest') : ∃ e₀ rest₀, s.pcs t' = .store e₀ sequence' rest₀ := by
      by_cases ht : t' = t
      · subst ht
        rw [hpc₁] at hpc'
        rcases hto i hw with ⟨rest'', heq, -, -⟩ | ⟨hno, -⟩
        · rw [heq] at hpc'
          cases hpc'
          exact ⟨_, _, hpc⟩
        · exact absurd hpc' (hno _ _ _)
      · rw [hpcs ht] at hpc'
        exact ⟨_, _, hpc'⟩
    intro t₁ t₂ e₁ e₂ sequence' rest₁ rest₂ h₁ h₂
    obtain ⟨_, _, h₁⟩ := hback h₁
    obtain ⟨_, _, h₂⟩ := hback h₂
    exact h.apart _ _ _ _ _ _ _ h₁ h₂
  · intro j e' hj hlive hfinished
    rw [hlog] at hj hlive
    rw [hcapacity] at hlive ⊢
    have hjlt : j < (s.log past).length := (List.getElem?_eq_some_iff.1 hj).1
    by_cases hij : j = i
    · subst hij
      rcases hto j hw with ⟨rest'', heq, -, -⟩ | ⟨-, hdone⟩
      · exact absurd hw.ticket (hfinished t _ _ _ (hpc₁.trans heq))
      · rw [hself]
        have hentry : e' = e := Option.some.inj (hj.symm.trans hw.entry)
        rw [hentry]
        exact hdone
    · rw [hrest (slots_apart hj hw.entry hlive hw.live hij)]
      refine h.whole j e' hj hlive fun t' e₀ sequence' rest₀ hpc' => ?_
      by_cases ht : t' = t
      · subst ht
        rw [hpc] at hpc'
        cases hpc'
        rw [hw.ticket]
        intro heq
        have htoNat := congrArg UInt64.toNat heq
        rw [UInt64.toNat_ofNat', UInt64.toNat_ofNat', Nat.mod_eq_of_lt (by omega), Nat.mod_eq_of_lt (by omega)] at htoNat
        exact hij htoNat.symm
      · exact hfinished t' e₀ sequence' rest₀ ((hpcs ht).trans hpc')

omit [DecidableEq ι] in
theorem ofNat_inj {i j : Nat} (hi : i < 2 ^ 64) (hj : j < 2 ^ 64) (h : UInt64.ofNat i = UInt64.ofNat j) : i = j := by
  have htoNat := congrArg UInt64.toNat h
  rwa [UInt64.toNat_ofNat', UInt64.toNat_ofNat', Nat.mod_eq_of_lt hi, Nat.mod_eq_of_lt hj] at htoNat

omit [DecidableEq ι] in
/-- The number in the slot that the next ticket gets is an older one. -/
theorem next_unpublished (h : s.Inv past) (hlen : (s.log past).length + 1 < 2 ^ 64)
    (hunlapped : ∀ t e sequence rest, s.pcs t = .store e sequence rest →
      s.recorder.nextSequence.toNat < sequence.toNat + s.recorder.capacity) :
    (s.recorder.records ((s.log past).length % s.recorder.capacity)).sequence ≠
      UInt64.ofNat ((s.log past).length + 1) := by
  by_cases hfirst : (s.log past).length < s.recorder.capacity
  · rw [Nat.mod_eq_of_lt hfirst, h.unwritten _ (Nat.le_refl _) hfirst]
    intro hzero
    have := ofNat_inj (i := 0) (by omega) hlen hzero
    omega
  · obtain ⟨j, hj⟩ : ∃ j, (s.log past).length = j + s.recorder.capacity := ⟨_, (Nat.sub_add_cancel (by omega)).symm⟩
    have hpos := h.capacity_pos
    have hlt : j < (s.log past).length := by omega
    have hdone : s.Finished j := by
      rintro t e sequence rest hpc rfl
      have hahead := hunlapped t e _ rest hpc
      rw [h.count, UInt64.toNat_ofNat', UInt64.toNat_ofNat', Nat.mod_eq_of_lt (by omega), Nat.mod_eq_of_lt (by omega)]
        at hahead
      omega
    have hold := h.whole j _ (List.getElem?_eq_getElem hlt) (by omega) hdone
    rw [hj, Nat.add_mod_right, hold]
    intro heq
    have := ofNat_inj (i := j + 1) (by omega) (by omega) heq
    omega

/-- A ticket is claimed. -/
theorem claimed (h : s.Inv past) (hlen : (s.log past).length + 1 < 2 ^ 64) {t : ι} {e : Entry} (hpc : s.pcs t = .claim e)
    (hunlapped : ∀ t e sequence rest, s.pcs t = .store e sequence rest →
      s.recorder.nextSequence.toNat < sequence.toNat + s.recorder.capacity) :
    (({ s with
      recorder := { s.recorder with nextSequence := s.recorder.nextSequence + 1 }
      claims := s.claims ++ [(t, e)] } : Shared ι).goto t (.store e s.recorder.nextSequence payload)).Inv past := by
  obtain ⟨s', hs'⟩ : ∃ s', s' = ({ s with
      recorder := { s.recorder with nextSequence := s.recorder.nextSequence + 1 }
      claims := s.claims ++ [(t, e)] } : Shared ι).goto t (.store e s.recorder.nextSequence payload) := ⟨_, rfl⟩
  rw [← hs']
  have hcapacity : s'.recorder.capacity = s.recorder.capacity := by rw [hs']; rfl
  have hmask : s'.recorder.mask = s.recorder.mask := by rw [hs']; rfl
  have hrecords : s'.recorder.records = s.recorder.records := by rw [hs']; rfl
  have hnext : s'.recorder.nextSequence = s.recorder.nextSequence + 1 := by rw [hs']; rfl
  have hlog : s'.log past = s.log past ++ [e] := by
    rw [hs']
    exact (congrArg (past ++ ·) (List.map_append ..)).trans (List.append_assoc ..).symm
  have hlength : (s'.log past).length = (s.log past).length + 1 := by rw [hlog, List.length_append]; rfl
  have hpc₁ : s'.pcs t = .store e s.recorder.nextSequence payload := by
    rw [hs']
    exact Function.update_self ..
  have hpcs {t' : ι} (ht : t' ≠ t) : s'.pcs t' = s.pcs t' := by
    rw [hs']
    exact Function.update_of_ne ht ..
  -- the tickets still being written are younger than a lap, and older than the new one
  have holder {t' : ι} {e' : Entry} {sequence' : UInt64} {rest' : List Field}
      (hpc' : s.pcs t' = .store e' sequence' rest') {j : Nat} (hw : s.Writing past e' sequence' rest' j) :
      j < (s.log past).length ∧ (s.log past).length < j + s.recorder.capacity := by
    have hj : j < (s.log past).length := (List.getElem?_eq_some_iff.1 hw.entry).1
    have hahead := hunlapped t' e' sequence' rest' hpc'
    rw [hw.ticket, h.count, UInt64.toNat_ofNat', UInt64.toNat_ofNat', Nat.mod_eq_of_lt (by omega),
      Nat.mod_eq_of_lt (by omega)] at hahead
    exact ⟨hj, hahead⟩
  have hpos := h.capacity_pos
  refine ⟨?_, ?_, ?_, ?_, ?_, ?_, ?_, ?_⟩
  · rw [hcapacity]
    exact h.capacity
  · rw [hmask, hcapacity]
    exact h.mask
  · rw [hrecords]
    exact h.reserved
  · rw [hnext, hlength, h.count, UInt64.ofNat_add]
    rfl
  · intro i hi hcap
    rw [hcapacity] at hcap
    rw [hrecords]
    exact h.unwritten i (by omega) hcap
  · intro t' e' sequence' rest' hpc'
    by_cases ht : t' = t
    · subst ht
      rw [hpc₁] at hpc'
      cases hpc'
      refine ⟨(s.log past).length, h.count, ?_, ?_, ?_, ?_⟩
      · rw [hlog, List.getElem?_concat_length]
      · rw [hlength, hcapacity]
        omega
      · rw [hrecords, hcapacity]
        exact h.next_unpublished hlen hunlapped
      · rw [hrecords, hcapacity]
        have hreserved := h.reserved ((s.log past).length % s.recorder.capacity)
        unfold Entry.toRecord
        rw [← hreserved]
        rfl
    · rw [hpcs ht] at hpc'
      obtain ⟨j, hw⟩ := h.writing t' e' sequence' rest' hpc'
      obtain ⟨hj, hlap⟩ := holder hpc' hw
      refine ⟨j, hw.ticket, ?_, ?_, ?_, ?_⟩
      · rw [hlog, List.getElem?_append_left hj]
        exact hw.entry
      · rw [hlength, hcapacity]
        exact hlap
      · rw [hrecords, hcapacity]
        exact hw.unpublished
      · rw [hrecords, hcapacity]
        exact hw.completes
  · -- the new ticket is nobody else's
    have hnew {t' : ι} {e' : Entry} {rest' : List Field}
        (hpc' : s.pcs t' = .store e' s.recorder.nextSequence rest') : False := by
      obtain ⟨j, hw⟩ := h.writing t' e' _ rest' hpc'
      obtain ⟨hj, -⟩ := holder hpc' hw
      have := ofNat_inj (by omega) (by omega) (h.count.symm.trans hw.ticket)
      omega
    intro t₁ t₂ e₁ e₂ sequence' rest₁ rest₂ h₁ h₂
    by_cases ht₁ : t₁ = t
    · by_cases ht₂ : t₂ = t
      · rw [ht₁, ht₂]
      · rw [ht₁, hpc₁] at h₁
        cases h₁
        exact (hnew ((hpcs ht₂).symm.trans h₂)).elim
    · by_cases ht₂ : t₂ = t
      · rw [ht₂, hpc₁] at h₂
        cases h₂
        exact (hnew ((hpcs ht₁).symm.trans h₁)).elim
      · exact h.apart _ _ _ _ _ _ _ ((hpcs ht₁).symm.trans h₁) ((hpcs ht₂).symm.trans h₂)
  · intro i e' hi hlive hfinished
    rw [hcapacity] at hlive ⊢
    rw [hrecords]
    have hbound := (List.getElem?_eq_some_iff.1 hi).1
    have hnot : i ≠ (s.log past).length := by
      rintro rfl
      exact hfinished t _ _ _ hpc₁ h.count
    have hlt : i < (s.log past).length := by omega
    rw [hlog, List.getElem?_append_left hlt] at hi
    refine h.whole i e' hi (by omega) fun t' e₀ sequence' rest₀ hpc' => ?_
    by_cases ht : t' = t
    · subst ht
      rw [hpc] at hpc'
      cases hpc'
    · exact hfinished t' e₀ sequence' rest₀ ((hpcs ht).trans hpc')

theorem advance (h : s.Inv past) {t : ι} (hunlapped : s.Unlapped (.advance t))
    (hlen : ((s.advance t).log past).length < 2 ^ 64) : (s.advance t).Inv past := by
  have hpast : (s.log past).length ≤ ((s.advance t).log past).length := by
    unfold Shared.advance
    split <;> simp [log, goto, write]
  unfold Shared.advance
  split
  · exact h
  · rename_i e hpc
    refine h.quiet (fun _ _ _ => (by rw [hpc]; exact fun h => by cases h)) ?_ rfl rfl rfl rfl rfl rfl
    intro _ _ _
    split <;> exact fun h => by cases h
  · rename_i e hpc
    refine h.quiet (fun _ _ _ => (by rw [hpc]; exact fun h => by cases h)) ?_ rfl rfl rfl rfl rfl rfl
    intro _ _ _
    split <;> exact fun h => by cases h
  · rename_i e hpc
    have hnew : ((s.advance t).log past).length = (s.log past).length + 1 := by
      unfold Shared.advance
      rw [hpc]
      simp [log, goto]
      omega
    exact h.claimed (by omega) hpc fun t' e' sequence rest hpc' =>
      hunlapped (by rw [hpc]; rfl) t' sequence (by rw [hpc']; rfl)
  · rename_i e sequence f rest hpc
    refine h.written (by omega) hpc (fun slot => by cases f <;> rfl) fun i hw => .inl ⟨rest, rfl, ?_, hw.completes⟩
    have hkept : (f.store e (s.recorder.records (i % s.recorder.capacity))).sequence =
        (s.recorder.records (i % s.recorder.capacity)).sequence := by cases f <;> rfl
    rw [hkept]
    exact hw.unpublished
  · rename_i e sequence hpc
    refine h.written (by omega) hpc (fun slot => rfl) fun i hw => .inr ⟨fun _ _ _ h => (by cases h), ?_⟩
    rw [hw.ticket]
    refine Eq.trans ?_ hw.completes
    congr 1
    rw [UInt64.ofNat_add]
    rfl
  · rename_i e hpc
    refine h.quiet (fun _ _ _ => (by rw [hpc]; exact fun h => by cases h)) (fun _ _ _ h => (by cases h)) rfl rfl rfl rfl rfl rfl

theorem step (h : s.Inv past) {a : ProducerAct ι} (hunlapped : s.Unlapped a)
    (hlen : ((s.step a).log past).length < 2 ^ 64) : (s.step a).Inv past := by
  cases a with
  | call t e =>
    unfold Shared.step
    dsimp only
    split
    · rename_i hpc
      refine h.quiet (fun _ _ _ => (by rw [hpc]; exact fun h => by cases h)) ?_ rfl rfl rfl rfl rfl rfl
      intro _ _ _
      split <;> exact fun h => by cases h
    · exact h
  | advance t => exact h.advance hunlapped hlen

/-- Every run whose claims lap nobody keeps the invariant. -/
theorem run (h : s.Inv past) {acts : List (ProducerAct ι)} (hunlapped : Meets Shared.step Shared.Unlapped s acts)
    (hlen : ((Runs.run Shared.step s acts).log past).length < 2 ^ 64) : (Runs.run Shared.step s acts).Inv past := by
  have hgrow (s : Shared ι) (a : ProducerAct ι) : (s.log past).length ≤ ((s.step a).log past).length := by
    unfold Shared.step Shared.advance
    cases a with
    | call t e => dsimp only; split <;> exact Nat.le_refl _
    | advance t => dsimp only; split <;> simp [log, goto, write]
  have hgrows (acts : List (ProducerAct ι)) (s : Shared ι) :
      (s.log past).length ≤ ((Runs.run Shared.step s acts).log past).length := by
    induction acts generalizing s with
    | nil => exact Nat.le_refl _
    | cons a acts ih => exact (hgrow s a).trans (ih _)
  induction acts generalizing s with
  | nil => exact h
  | cons a acts ih =>
    exact ih (h.step hunlapped.1 ((hgrows acts (s.step a)).trans_lt hlen)) hunlapped.2 hlen

omit [DecidableEq ι] in
/-- What a slot says of its ticket. -/
theorem published_iff (h : s.Inv past) {i : Nat} {e : Entry} (hi : (s.log past)[i]? = some e)
    (hlive : (s.log past).length ≤ i + s.recorder.capacity) (hlen : (s.log past).length < 2 ^ 64) :
    (s.recorder.records (i % s.recorder.capacity)).sequence = UInt64.ofNat (i + 1) ↔ s.Finished i := by
  have hlt : i < (s.log past).length := (List.getElem?_eq_some_iff.1 hi).1
  constructor
  · rintro hsequence t e' sequence rest hpc rfl
    obtain ⟨j, hw⟩ := h.writing t e' _ rest hpc
    have hj : j < (s.log past).length := (List.getElem?_eq_some_iff.1 hw.entry).1
    obtain rfl : i = j := ofNat_inj (by omega) (by omega) hw.ticket
    exact hw.unpublished hsequence
  · intro hdone
    rw [h.whole i e hi hlive hdone]
    rfl

omit [DecidableEq ι] in
/-- Once all producers have returned, the recorder holds the log. -/
theorem refines (h : s.Inv past) (hidle : ∀ t, s.pcs t = .idle) :
    Refines s.recorder
      { enabled := s.recorder.enabled, eventMask := s.recorder.eventMask
        armed := if s.recorder.freezeTrigger = .unknown then none else some s.recorder.freezeTrigger
        closed := s.recorder.frozen, entries := s.log past } where
  capacity := h.capacity
  mask := h.mask
  enabled := rfl
  eventMask := rfl
  trigger := rfl
  frozen := fun _ => rfl
  count := h.count
  slots := by
    intro i e hi hlive
    refine h.whole i e hi hlive fun t e' sequence rest hpc => ?_
    rw [hidle t] at hpc
    cases hpc
  reserved := h.reserved

end Shared.Inv

/-! ### The order of the tickets -/

namespace Shared

variable {ι : Type*} [DecidableEq ι]

/-- Thread `t` has a ticket for what it recorded, in its own order: for all that the mask selects, while nothing froze the
recorder. -/
structure InOrder (s : Shared ι) (t : ι) (settled : List Entry) : Prop where
  calls : ofThread t s.calls = settled ++ (s.pcs t).pending
  claims : (ofThread t s.claims).Sublist (settled.filter fun e => EventLog.Selects s.recorder.eventMask e.event)
  all : s.recorder.enabled = true → s.recorder.frozen = false →
    ofThread t s.claims = settled.filter fun e => EventLog.Selects s.recorder.eventMask e.event
  selected : ∀ e, s.pcs t = .claim e → EventLog.Selects s.recorder.eventMask e.event

theorem ofThread_concat_self (t : ι) (l : List (ι × Entry)) (e : Entry) :
    ofThread t (l ++ [(t, e)]) = ofThread t l ++ [e] := by
  simp [ofThread]

theorem ofThread_concat_ne {t t' : ι} (h : t' ≠ t) (l : List (ι × Entry)) (e : Entry) :
    ofThread t (l ++ [(t', e)]) = ofThread t l := by
  simp [ofThread, h]

variable {s s' : Shared ι} {t : ι} {settled : List Entry}

theorem InOrder.congr (h : s.InOrder t settled) (hcalls : ofThread t s'.calls = ofThread t s.calls)
    (hclaims : ofThread t s'.claims = ofThread t s.claims) (hpending : (s'.pcs t).pending = (s.pcs t).pending)
    (hclaim : ∀ e, s'.pcs t = .claim e → s.pcs t = .claim e ∨ EventLog.Selects s.recorder.eventMask e.event)
    (hmask : s'.recorder.eventMask = s.recorder.eventMask) (henabled : s'.recorder.enabled = s.recorder.enabled)
    (hfrozen : s'.recorder.frozen = false → s.recorder.frozen = false) : s'.InOrder t settled := by
  refine ⟨?_, ?_, ?_, ?_⟩
  · rw [hcalls, hpending]
    exact h.calls
  · rw [hclaims, hmask]
    exact h.claims
  · rw [henabled, hclaims, hmask]
    exact fun hon hthawed => h.all hon (hfrozen hthawed)
  · intro e he
    rw [hmask]
    exact (hclaim e he).elim (h.selected e) id

/-- A call that ends at a gate: with no ticket, since the recorder is off or frozen or the mask leaves the event out. -/
theorem InOrder.refuse (h : s.InOrder t settled) {e : Entry} (hcalls : ofThread t s'.calls = settled ++ [e])
    (hclaims : ofThread t s'.claims = ofThread t s.claims) (hidle : s'.pcs t = .idle)
    (hmask : s'.recorder.eventMask = s.recorder.eventMask) (henabled : s'.recorder.enabled = s.recorder.enabled)
    (hfrozen : s'.recorder.frozen = s.recorder.frozen)
    (hgate : s.recorder.enabled = false ∨ s.recorder.frozen = true ∨ ¬EventLog.Selects s.recorder.eventMask e.event) :
    s'.InOrder t (settled ++ [e]) := by
  refine ⟨?_, ?_, ?_, ?_⟩
  · rw [hidle]
    exact hcalls.trans (List.append_nil _).symm
  · rw [hclaims, hmask, List.filter_append]
    exact h.claims.trans (List.sublist_append_left ..)
  · rw [henabled, hfrozen, hclaims, hmask]
    intro hon hthawed
    rcases hgate with hoff | hfroze | hout
    · exact absurd (hoff.symm.trans hon) Bool.false_ne_true
    · exact absurd (hthawed.symm.trans hfroze) Bool.false_ne_true
    · rw [h.all hon hthawed, List.filter_append, List.filter_singleton, decide_eq_false hout]
      exact (List.append_nil _).symm
  · intro e' he'
    rw [hidle] at he'
    cases he'

theorem InOrder.step (h : s.InOrder t settled) (a : ProducerAct ι) : ∃ settled', (s.step a).InOrder t settled' := by
  have hgate (e : Entry) := Refines.selects_iff s.recorder.eventMask e.event
  have goto_ne {t' : ι} (ht : t ≠ t') {s₁ : Shared ι} {pc : Pc} : (s₁.goto t' pc).pcs t = s₁.pcs t :=
    Function.update_of_ne ht ..
  have goto_self {s₁ : Shared ι} {pc : Pc} : (s₁.goto t pc).pcs t = pc := Function.update_self ..
  cases a with
  | call t' e =>
    unfold Shared.step
    dsimp only
    split
    · rename_i hidle
      by_cases ht : t = t'
      · subst ht
        have hcalls := h.calls
        rw [hidle] at hcalls
        have hnow : ofThread t (s.calls ++ [(t, e)]) = settled ++ [e] := by
          rw [ofThread_concat_self, hcalls]
          exact congrArg (· ++ [e]) (List.append_nil settled)
        cases hon : s.recorder.enabled with
        | true =>
          refine ⟨settled, ?_, h.claims, h.all, ?_⟩
          · rw [goto_self]
            exact hnow
          · rw [goto_self]
            intro e' he'
            cases he'
        | false => exact ⟨settled ++ [e], h.refuse hnow rfl goto_self rfl rfl rfl (.inl hon)⟩
      · refine ⟨settled, h.congr (ofThread_concat_ne (Ne.symm ht) ..) rfl ?_ ?_ rfl rfl id⟩
        · rw [goto_ne ht]
        · rw [goto_ne ht]
          exact fun _ => .inl
    · exact ⟨settled, h⟩
  | advance t' =>
    unfold Shared.step Shared.advance
    dsimp only
    by_cases ht : t = t'
    swap
    · refine ⟨settled, ?_⟩
      split
      · exact h
      all_goals
        refine h.congr rfl ?_ (congrArg Pc.pending (goto_ne ht)) (fun _ he => .inl ((goto_ne ht).symm.trans he)) rfl rfl ?_
      all_goals first | exact id | exact rfl | exact ofThread_concat_ne (Ne.symm ht) .. | skip
      intro hthawed
      change (if _ then true else _) = false at hthawed
      split at hthawed
      · cases hthawed
      · exact hthawed
    subst ht
    have hcalls := h.calls
    split
    · exact ⟨settled, h⟩
    · rename_i e hpc
      rw [hpc] at hcalls
      cases hfrozen : s.recorder.frozen with
      | true => exact ⟨settled ++ [e], h.refuse hcalls rfl goto_self rfl rfl rfl (.inr (.inl hfrozen))⟩
      | false =>
        refine ⟨settled, h.congr rfl rfl ?_ ?_ rfl rfl id⟩
        · rw [goto_self, hpc]
          rfl
        · rw [goto_self]
          exact fun _ he => (by cases he)
    · rename_i e hpc
      rw [hpc] at hcalls
      by_cases hout : s.recorder.eventMask ≠ 0 ∧ s.recorder.eventMask &&& maskOf e.event = 0
      · rw [if_pos hout]
        exact ⟨settled ++ [e], h.refuse hcalls rfl goto_self rfl rfl rfl (.inr (.inr fun hsel => (hgate e).2 hsel hout))⟩
      · rw [if_neg hout]
        refine ⟨settled, h.congr rfl rfl ?_ ?_ rfl rfl id⟩
        · rw [goto_self, hpc]
          rfl
        · rw [goto_self]
          intro e' he'
          cases he'
          exact .inr ((hgate e).1 hout)
    · rename_i e hpc
      have hsel := h.selected e hpc
      rw [hpc] at hcalls
      have hkept : (settled ++ [e]).filter (fun e => EventLog.Selects s.recorder.eventMask e.event) =
          settled.filter (fun e => EventLog.Selects s.recorder.eventMask e.event) ++ [e] := by
        rw [List.filter_append, List.filter_singleton, decide_eq_true hsel]
        rfl
      have hsub : (ofThread t s.claims ++ [e]).Sublist
          ((settled ++ [e]).filter fun e => EventLog.Selects s.recorder.eventMask e.event) := by
        rw [hkept]
        exact h.claims.append (List.Sublist.refl [e])
      refine ⟨settled ++ [e], ?_, ?_, ?_, ?_⟩
      · rw [goto_self]
        exact hcalls.trans (List.append_nil _).symm
      · change (ofThread t (s.claims ++ [(t, e)])).Sublist _
        rw [ofThread_concat_self]
        exact hsub
      · intro hon hthawed
        change ofThread t (s.claims ++ [(t, e)]) = _
        rw [ofThread_concat_self, h.all hon hthawed]
        exact hkept.symm
      · rw [goto_self]
        exact fun _ he => (by cases he)
    · rename_i e sequence f rest hpc
      refine ⟨settled, h.congr rfl rfl ?_ ?_ rfl rfl id⟩
      · rw [goto_self, hpc]
        rfl
      · rw [goto_self]
        exact fun _ he => (by cases he)
    · rename_i e sequence hpc
      refine ⟨settled, h.congr rfl rfl ?_ ?_ rfl rfl id⟩
      · rw [goto_self, hpc]
        rfl
      · rw [goto_self]
        exact fun _ he => (by cases he)
    · rename_i e hpc
      refine ⟨settled, h.congr rfl rfl ?_ ?_ rfl rfl ?_⟩
      · rw [goto_self, hpc]
        rfl
      · rw [goto_self]
        exact fun _ he => (by cases he)
      · intro hthawed
        change (if _ then true else _) = false at hthawed
        split at hthawed
        · cases hthawed
        · exact hthawed

theorem InOrder.run (h : s.InOrder t settled) (acts : List (ProducerAct ι)) :
    ∃ settled', (Runs.run Shared.step s acts).InOrder t settled' := by
  induction acts generalizing s settled with
  | nil => exact ⟨settled, h⟩
  | cons a acts ih =>
    obtain ⟨settled', h'⟩ := h.step a
    exact ih h'

end Shared

/-! ### The start -/

/-- The slots that no entry has come to since the last reset. -/
def Fresh (r : PacketFlightRecorder) (l : EventLog) : Prop :=
  ∀ i, l.entries.length ≤ i → i < r.capacity → (r.records i).sequence = 0

theorem Refines.fresh_step {r : PacketFlightRecorder} {l : EventLog} (h : Refines r l) (hfresh : Fresh r l) (c : Call)
    (hc : c.Named) : Fresh (r.step c) (l.step c) := by
  cases c with
  | setEnabled enabled =>
    cases enabled with
    | true => exact fun _ _ _ => rfl
    | false => exact hfresh
  | setEventMask mask => exact hfresh
  | setFreezeTrigger trigger => exact hfresh
  | reset => exact fun _ _ _ => rfl
  | record e =>
    by_cases he : l.Accepts e.event
    · rw [h.record_of_accepts he, show l.step (.record e) = l.append e from if_pos he]
      intro i hi hcap
      have hlength : (l.append e).entries.length = l.entries.length + 1 := List.length_append
      have hlt : l.entries.length % r.capacity < i := (Nat.mod_le _ _).trans_lt (by omega)
      exact (congrArg Record.sequence (Function.update_of_ne hlt.ne' ..)).trans (hfresh i (by omega) hcap)
    · rw [h.record_of_not_accepts he, show l.step (.record e) = l from if_neg he]
      exact hfresh

theorem run_fresh (requestedCapacity : Nat) {calls : List Call} (hcalls : ∀ c ∈ calls, c.Named) :
    Fresh (run step (create requestedCapacity) calls) (run EventLog.step {} calls) := by
  have hrun := run_simulates (R := fun r l => Refines r l ∧ Fresh r l)
    (fun r l c hc h => ⟨h.1.step c hc, h.1.fresh_step h.2 c hc⟩) hcalls
    (s := create requestedCapacity) (t := {}) ⟨.create requestedCapacity, fun _ _ _ => rfl⟩
  exact hrun.2

/-- The recorder as its set-up calls leave it, before any producer runs. -/
theorem Shared.Inv.start {ι : Type*} {r : PacketFlightRecorder} {l : EventLog} (h : Refines r l) (hfresh : Fresh r l) :
    ({ recorder := r } : Shared ι).Inv l.entries := by
  have hlog : ({ recorder := r } : Shared ι).log l.entries = l.entries := List.append_nil _
  refine ⟨h.capacity, h.mask, h.reserved, ?_, ?_, ?_, ?_, ?_⟩
  · rw [hlog]
    exact h.count
  · rw [hlog]
    exact hfresh
  · intro t e sequence rest hpc
    cases hpc
  · intro t t' e e' sequence rest rest' hpc
    cases hpc
  · rw [hlog]
    exact fun i e hi hlive _ => h.slots i e hi hlive

/-- In every interleaving of producers that laps nobody, a slot of the newest lap has the number of its ticket exactly if
the ticket has been written, and then holds it whole. Once the producers have returned, a snapshot is the end of the log
of tickets, numbered as ever. The tickets of a thread are in the order of its calls, and none that the mask selects is
missing unless the recorder was frozen. -/
theorem concurrent_records_whole {ι : Type*} [DecidableEq ι] (requestedCapacity : Nat) {setup : List Call}
    (hsetup : ∀ c ∈ setup, c.Named) (acts : List (ProducerAct ι)) :
    let start : Shared ι := { recorder := run step (create requestedCapacity) setup }
    let past := (run EventLog.step {} setup).entries
    let s := run Shared.step start acts
    let log := s.log past
    Meets Shared.step Shared.Unlapped start acts → log.length < 2 ^ 64 →
    (∀ i e, log[i]? = some e → log.length ≤ i + s.recorder.capacity →
      ((s.recorder.records (i % s.recorder.capacity)).sequence = UInt64.ofNat (i + 1) ↔ s.Finished i) ∧
      (s.Finished i → s.recorder.records (i % s.recorder.capacity) = e.toRecord i)) ∧
    ((∀ t, s.pcs t = .idle) →
      (∀ n, let k := min n (min s.recorder.capacity log.length)
        (s.recorder.snapshot true n).map Record.entry = log.drop (log.length - k) ∧
          ((s.recorder.snapshot true n).map fun record => record.sequence.toNat) =
            List.range' (log.length - k + 1) k) ∧
      ∀ t, let selected := (Shared.ofThread t s.calls).filter fun e => EventLog.Selects s.recorder.eventMask e.event
        (Shared.ofThread t s.claims).Sublist selected ∧
          (s.recorder.enabled = true → s.recorder.frozen = false → Shared.ofThread t s.claims = selected)) := by
  intro start past s log hunlapped hlen
  have hstart : start.Inv past := .start (run_refines requestedCapacity hsetup) (run_fresh requestedCapacity hsetup)
  have hinv : s.Inv past := hstart.run hunlapped hlen
  refine ⟨fun i e hi hlive => ⟨hinv.published_iff hi hlive hlen, hinv.whole i e hi hlive⟩, fun hidle => ⟨fun n => ?_, fun t => ?_⟩⟩
  · have hrefines := hinv.refines hidle
    exact ⟨hrefines.snapshot_entries hlen n, hrefines.snapshot_sequences hlen n⟩
  · have hbegin : start.InOrder t [] := ⟨rfl, List.Sublist.refl _, fun _ _ => rfl, fun e he => (by cases he)⟩
    obtain ⟨settled, horder⟩ := hbegin.run acts
    have hcalls : Shared.ofThread t s.calls = settled := by
      have hall : Shared.ofThread t s.calls = settled ++ (s.pcs t).pending := horder.calls
      rw [hall, hidle t]
      exact List.append_nil settled
    dsimp only
    rw [hcalls]
    exact ⟨horder.claims, horder.all⟩

/-- Two producers at once on a recorder of two, the later ticket written first. -/
theorem concurrent_records_whole_two :
    let e : UInt64 → Entry := fun k => ⟨.quantumOffered, k, 0, 0, 0, 0⟩
    let acts : List (ProducerAct Bool) := [.call false (e 1), .call true (e 2)] ++
      List.replicate 3 (.advance false) ++ List.replicate 11 (.advance true) ++ List.replicate 8 (.advance false)
    let s := run Shared.step { recorder := run step (create 2) [.setEnabled true] } acts
    (s.recorder.snapshot true 2).map Record.entry = [e 1, e 2] := by
  intro e acts s
  have hsetup : ∀ c ∈ [Call.setEnabled true], c.Named := by decide
  obtain ⟨-, hquiet⟩ := concurrent_records_whole 2 hsetup acts (by decide +kernel) (by decide +kernel)
  exact ((hquiet (by decide +kernel)).1 2).1.trans (by decide +kernel)

/-! ### The freeze -/

namespace Shared

variable {ι : Type*} [DecidableEq ι] [Fintype ι] {s : Shared ι}

def passed (s : Shared ι) : Nat := (Finset.univ.filter fun t => (s.pcs t).passed = true).card

theorem passed_goto (t : ι) (pc : Pc) :
    (s.goto t pc).passed + (s.pcs t).passed.toNat = s.passed + pc.passed.toNat := by
  have hsplit (s : Shared ι) :
      s.passed = (s.pcs t).passed.toNat + ∑ t' ∈ Finset.univ.erase t, (s.pcs t').passed.toNat := by
    rw [passed, Finset.card_filter, ← Finset.add_sum_erase _ _ (Finset.mem_univ t)]
    have hone (b : Bool) : (if b = true then 1 else 0) = b.toNat := by cases b <;> rfl
    simp only [hone]
  have hrest : ∑ t' ∈ Finset.univ.erase t, ((s.goto t pc).pcs t').passed.toNat =
      ∑ t' ∈ Finset.univ.erase t, (s.pcs t').passed.toNat := by
    refine Finset.sum_congr rfl fun t' ht => ?_
    exact congrArg (fun pc : Pc => pc.passed.toNat) (Function.update_of_ne (Finset.ne_of_mem_erase ht) ..)
  have hself : (s.goto t pc).pcs t = pc := Function.update_self ..
  rw [hsplit (s.goto t pc), hsplit s, hrest, hself]
  omega

/-- A thread that has come past the flag takes its ticket or gives up, and nobody else comes past it. -/
theorem frozen_step (h : s.recorder.frozen = true) (a : ProducerAct ι) :
    (s.step a).recorder.frozen = true ∧ (s.step a).claims.length + (s.step a).passed ≤ s.claims.length + s.passed := by
  -- a move that takes nobody past the flag
  have hmove {s₁ : Shared ι} {t : ι} {pc : Pc} (hpcs : s₁.pcs = s.pcs) (hpc : pc.passed = true → (s.pcs t).passed = true) :
      (s₁.goto t pc).passed ≤ s.passed := by
    have hpassed := passed_goto (s := s₁) t pc
    have hsame : s₁.passed = s.passed := by rw [passed, passed, hpcs]
    rw [hpcs, hsame] at hpassed
    cases h₁ : pc.passed with
    | false =>
      rw [h₁] at hpassed
      exact (Nat.le_add_right _ _).trans (Nat.le_of_eq hpassed)
    | true =>
      rw [h₁, hpc h₁] at hpassed
      exact Nat.le_of_eq (Nat.add_right_cancel hpassed)
  unfold Shared.step Shared.advance
  cases a with
  | call t e =>
    dsimp only
    split
    · refine ⟨h, Nat.add_le_add_left (hmove rfl ?_) _⟩
      split <;> exact fun hpc => absurd hpc Bool.false_ne_true
    · exact ⟨h, Nat.le_refl _⟩
  | advance t =>
    dsimp only
    split
    · exact ⟨h, Nat.le_refl _⟩
    · refine ⟨h, Nat.add_le_add_left (hmove rfl ?_) _⟩
      rw [h, if_pos rfl]
      exact fun hpc => absurd hpc Bool.false_ne_true
    · rename_i e hpc
      refine ⟨h, Nat.add_le_add_left (hmove rfl fun _ => ?_) _⟩
      rw [hpc]
      rfl
    · rename_i e hpc
      obtain ⟨s₁, hs₁⟩ : ∃ s₁ : Shared ι, s₁ = { s with
        recorder := { s.recorder with nextSequence := s.recorder.nextSequence + 1 }
        claims := s.claims ++ [(t, e)] } := ⟨_, rfl⟩
      have hpassed := passed_goto (s := s₁) t (.store e s.recorder.nextSequence payload)
      have hsame : s₁.passed = s.passed := by rw [hs₁]; rfl
      have hfrom : (s₁.pcs t).passed.toNat = 1 := by rw [hs₁, hpc]; rfl
      have hto : (Pc.store e s.recorder.nextSequence payload).passed.toNat = 0 := rfl
      have hclaims : (s₁.goto t (.store e s.recorder.nextSequence payload)).claims.length = s.claims.length + 1 := by
        rw [hs₁]
        exact List.length_append
      rw [← hs₁, hclaims]
      exact ⟨by rw [hs₁]; exact h, by omega⟩
    · exact ⟨h, Nat.add_le_add_left (hmove rfl fun hpc => (by cases hpc)) _⟩
    · exact ⟨h, Nat.add_le_add_left (hmove rfl fun hpc => (by cases hpc)) _⟩
    · refine ⟨?_, Nat.add_le_add_left (hmove rfl fun hpc => (by cases hpc)) _⟩
      exact ite_eq_left_iff.2 fun _ => h

end Shared

/-- Once the trigger has frozen the recorder, no more tickets are claimed than there are threads that had come past the
flag before: whatever is recorded later ends at the flag. -/
theorem frozen_claims_bounded {ι : Type*} [DecidableEq ι] [Fintype ι] (s : Shared ι) (h : s.recorder.frozen = true)
    (acts : List (ProducerAct ι)) :
    (run Shared.step s acts).claims.length ≤ s.claims.length + s.passed := by
  have hrun := run_invariant (I := fun s' : Shared ι => s'.recorder.frozen = true ∧
    s'.claims.length + s'.passed ≤ s.claims.length + s.passed)
    (fun s' a hs' => ⟨(Shared.frozen_step hs'.1 a).1, (Shared.frozen_step hs'.1 a).2.trans hs'.2⟩) ⟨h, Nat.le_refl _⟩ acts
  exact (Nat.le_add_right _ _).trans hrun.2

/-- A producer that was past the flag still records its event behind the trigger. -/
theorem frozen_claims_bounded_one :
    let e : Event → Entry := fun event => ⟨event, 0, 0, 0, 0, 0⟩
    let acts : List (ProducerAct Bool) := [.call false (e .quantumRefused), .call true (e .quantumOffered)] ++
      [.advance true] ++ List.replicate 11 (.advance false)
    let start : Shared Bool := { recorder := run step (create 4) [.setFreezeTrigger .quantumRefused, .setEnabled true] }
    let s := run Shared.step start acts
    (run Shared.step s (List.replicate 10 (.advance true))).claims.length ≤ 1 + 1 := by
  intro e acts start s
  have hfrozen : s.recorder.frozen = true := by decide +kernel
  exact (frozen_claims_bounded s hfrozen _).trans (by decide +kernel)

end PacketFlightRecorder

end UacDriver
