import UacDriver.DescriptorReads
import UacDriver.Lib.Search

/-!
# Negotiating the sample rate

`setSampleRate` asks every clock of a UAC2 device to take the rate and, if none does, asks each for the rate it runs at.
The device is a function of all that has been exchanged so far, so that it may stall, answer short, report any rate or
change its mind between two transfers. A rate is accepted only on the word of the clock the format is left with.
-/

namespace UacDriver

open Search

/-! ### Control transfers -/

structure ControlRequest where
  bmRequestType : Nat
  bRequest : Nat
  wValue : Nat
  wIndex : Nat
  /-- The bytes sent, for a transfer to the device. -/
  data : List UInt8 := []
  wLength : Nat
  deriving DecidableEq

/-- What `libusb_control_transfer` returns, and the buffer it has filled, which starts out as zeros. -/
structure ControlReply where
  rc : Int
  data : List UInt8 := []

/-- The bytes received. -/
def ControlReply.received (r : ControlReply) : List UInt8 := (List.range r.rc.toNat).map fun k => r.data.getD k 0

structure Exchange where
  request : ControlRequest
  reply : ControlReply

/-- The replies of a device, each by all exchanges before it. -/
abbrev UsbControl := List Exchange → ControlRequest → ControlReply

def REQ_SET_CUR : Nat := 0x01
def REQ_RANGE : Nat := 0x02
def CS_SAM_FREQ_CONTROL_SEL : Nat := 0x01

/-- The rate on the wire, little endian. -/
def rateBytes (hz : UInt32) : List UInt8 :=
  [(hz &&& 0xFF).toUInt8, (hz >>> 8 &&& 0xFF).toUInt8, (hz >>> 16 &&& 0xFF).toUInt8, (hz >>> 24 &&& 0xFF).toUInt8]

def setCurRequest (controlInterfaceNum : Nat) (hz : UInt32) (id : Nat) : ControlRequest where
  bmRequestType := 0x21
  bRequest := REQ_SET_CUR
  wValue := CS_SAM_FREQ_CONTROL_SEL <<< 8
  wIndex := id <<< 8 ||| controlInterfaceNum
  data := rateBytes hz
  wLength := 4

def getCurRequest (controlInterfaceNum : Nat) (id : Nat) : ControlRequest where
  bmRequestType := 0xA1
  bRequest := REQ_SET_CUR
  wValue := CS_SAM_FREQ_CONTROL_SEL <<< 8
  wIndex := id <<< 8 ||| controlInterfaceNum
  wLength := 4

def getRangeRequest (controlInterfaceNum : Nat) (id : Nat) : ControlRequest where
  bmRequestType := 0xA1
  bRequest := REQ_RANGE
  wValue := CS_SAM_FREQ_CONTROL_SEL <<< 8
  wIndex := id <<< 8 ||| controlInterfaceNum
  wLength := 256

/-- The UAC1 request, to the data endpoint. -/
def endpointRateRequest (endpointAddress : Nat) (data : List UInt8) : ControlRequest where
  bmRequestType := 0x22
  bRequest := REQ_SET_CUR
  wValue := CS_SAM_FREQ_CONTROL_SEL <<< 8
  wIndex := endpointAddress
  data := data
  wLength := data.length

theorem low_byte (x : UInt32) : (x &&& 0xFF).toUInt8.toUInt32 = x &&& 0xFF := by
  apply UInt32.toNat_inj.1
  simp only [UInt32.toNat_and, UInt8.toNat_toUInt32, UInt32.toNat_toUInt8]
  exact Nat.mod_eq_of_lt (Nat.lt_succ_of_le Nat.and_le_right)

theorem getLsbD_byteMask (j : Nat) : (0xFF#32).getLsbD j = decide (j < 8) := by
  rw [BitVec.getLsbD_ofNat]
  change (decide (j < 32) && (2 ^ 8 - 1).testBit j) = _
  rw [Nat.testBit_two_pow_sub_one, ← Bool.decide_and]
  exact decide_eq_decide.2 ⟨And.right, fun h => ⟨by omega, h⟩⟩

/-- The four bytes of a SET_CUR are exactly the rate. -/
theorem rd32_rateBytes (hz : UInt32) : rd32 (rateBytes hz) 0 = hz := by
  simp only [rd32, rateBytes, List.getD_cons_zero, List.getD_cons_succ, low_byte]
  apply UInt32.toBitVec_inj.1
  apply BitVec.eq_of_getLsbD_eq
  intro i hi
  -- bit `i` comes back from the byte `i / 8`
  simp only [UInt32.toBitVec_or, UInt32.toBitVec_and, UInt32.toBitVec_ofNat, UInt32.toBitVec_shiftLeft,
    UInt32.toBitVec_shiftRight, BitVec.ofNat_eq_ofNat, BitVec.reduceMod, BitVec.ushiftRight_eq', BitVec.toNat_ofNat,
    Nat.reducePow, Nat.reduceMod, BitVec.shiftLeft_eq', BitVec.getLsbD_or, BitVec.getLsbD_and, getLsbD_byteMask,
    BitVec.getLsbD_shiftLeft, BitVec.getLsbD_ushiftRight]
  grind

/-- The entity a request is for, out of its index: ids and interface numbers are bytes. -/
theorem wIndex_entity {id controlInterfaceNum : Nat} (h : controlInterfaceNum < 2 ^ 8) :
    (id <<< 8 ||| controlInterfaceNum) >>> 8 = id := by
  rw [Nat.shiftRight_or_distrib, Nat.shiftLeft_shiftRight, Nat.shiftRight_eq_div_pow, Nat.div_eq_of_lt h, Nat.or_zero]

/-! ### The function -/

/-- What `setSampleRate` works on; the log has its exchanges. -/
structure RateState where
  format : StreamFormat
  supportedRates : List ClockRateRange := []
  log : List Exchange := []

namespace RateState

variable (device : UsbControl) (s : RateState)

def transfer (request : ControlRequest) : ControlReply := device s.log request

def exchange (request : ControlRequest) : Exchange := ⟨request, s.transfer device request⟩

def after (request : ControlRequest) : RateState := { s with log := s.log ++ [s.exchange device request] }

/-- The loop over a GET_RANGE reply of at least two bytes. -/
def keepRange (clockId : Nat) (reply : ControlReply) : RateState :=
  { s with supportedRates := if reply.rc < 2 then s.supportedRates else
    (inventory? s.supportedRates clockId reply.received).getD s.supportedRates }

/-- For an open device. -/
def captureRangeForClock (clockId : Nat) : RateState :=
  if clockId = 0 then s
  else
    let request := getRangeRequest s.format.controlInterfaceNum clockId
    (s.after device request).keepRange clockId (s.transfer device request)

end RateState

/-- The resolved clock first, then every other candidate. -/
def StreamFormat.tryIds (f : StreamFormat) : List Nat :=
  (if f.clockSourceId ≠ 0 then [f.clockSourceId] else []) ++
    f.candidateClockIds.filter fun id => id != 0 && id != f.clockSourceId

/-- One round of the SET_CUR loop. -/
def trySetCur (device : UsbControl) (hz : UInt32) (s : RateState) (id : Nat) : Bool × RateState :=
  let request := setCurRequest s.format.controlInterfaceNum hz id
  ((s.transfer device request).rc == 4, s.after device request)

/-- One round of the GET_CUR loop, with its GET_RANGE. -/
def tryGetCur (device : UsbControl) (hz : UInt32) (s : RateState) (id : Nat) : Bool × RateState :=
  let current := getCurRequest s.format.controlInterfaceNum id
  let range := getRangeRequest s.format.controlInterfaceNum id
  let cur := s.transfer device current
  let s₁ := s.after device current
  let hzGot := if cur.rc = 4 then rd32 cur.data 0 else 0
  (cur.rc == 4 && hzGot == hz, (s₁.after device range).keepRange id (s₁.transfer device range))

/-- The rate read back for the error text is left out. -/
def setSampleRate (device : UsbControl) (hz : UInt32) (s : RateState) : Bool × RateState :=
  if 0x0200 ≤ s.format.uacVersion then
    let tryIds := s.format.tryIds
    if tryIds.isEmpty then (true, s)
    else match first (trySetCur device hz) s tryIds with
      | (some winningId, s) =>
        let s := if winningId ≠ s.format.clockSourceId then
            { s with format := { s.format with clockSourceId := winningId } } else s
        (true, s.captureRangeForClock device winningId)
      | (none, s) => match first (tryGetCur device hz) s tryIds with
        | (some id, s) => (true, { s with format := { s.format with clockSourceId := id } })
        | (none, s) => (false, s)
  else
    let data := (rateBytes hz).take 3
    let request := endpointRateRequest s.format.endpointAddress data
    let s₁ := s.after device request
    if (s.transfer device request).rc ≠ 3 then
      let fallback := endpointRateRequest s.format.endpointAddress (data ++ [0])
      ((s₁.transfer device fallback).rc == 4, s₁.after device fallback)
    else (true, s₁)

/-! ### What the log says -/

/-- A nonzero clock of the format. -/
def StreamFormat.IsClock (f : StreamFormat) (id : Nat) : Prop :=
  id ≠ 0 ∧ (id = f.clockSourceId ∨ id ∈ f.candidateClockIds)

/-- The clock has taken the rate. -/
def Exchange.Acknowledges (controlInterfaceNum : Nat) (hz : UInt32) (id : Nat) (e : Exchange) : Prop :=
  e.request = setCurRequest controlInterfaceNum hz id ∧ e.reply.rc = 4

/-- The clock runs at the rate. -/
def Exchange.Reports (controlInterfaceNum : Nat) (hz : UInt32) (id : Nat) (e : Exchange) : Prop :=
  e.request = getCurRequest controlInterfaceNum id ∧ e.reply.rc = 4 ∧ rd32 e.reply.data 0 = hz

/-- The clock was asked to take the rate and did not. -/
def RefusesRate (log : List Exchange) (controlInterfaceNum : Nat) (hz : UInt32) (id : Nat) : Prop :=
  (∃ e ∈ log, e.request = setCurRequest controlInterfaceNum hz id) ∧
    ∀ e ∈ log, ¬ e.Acknowledges controlInterfaceNum hz id

/-- The clock was asked for its rate and did not report this one. -/
def DeniesRate (log : List Exchange) (controlInterfaceNum : Nat) (hz : UInt32) (id : Nat) : Prop :=
  (∃ e ∈ log, e.request = getCurRequest controlInterfaceNum id) ∧
    ∀ e ∈ log, ¬ e.Reports controlInterfaceNum hz id

theorem StreamFormat.mem_tryIds {f : StreamFormat} {id : Nat} : id ∈ f.tryIds ↔ f.IsClock id := by
  unfold tryIds IsClock
  simp only [List.mem_append, List.mem_filter, Bool.and_eq_true, bne_iff_ne]
  by_cases hsource : f.clockSourceId = 0
  · rw [if_neg (not_not.2 hsource), hsource]
    grind
  · rw [if_pos hsource, List.mem_singleton]
    grind

theorem StreamFormat.tryIds_isEmpty {f : StreamFormat} : f.tryIds.isEmpty = true ↔ ∀ id, ¬ f.IsClock id := by
  rw [List.isEmpty_iff, List.eq_nil_iff_forall_not_mem]
  exact forall_congr' fun id => not_congr mem_tryIds

/-- The resolved clock leads. -/
theorem StreamFormat.tryIds_eq_cons {f : StreamFormat} (h : f.clockSourceId ≠ 0) :
    ∃ rest, f.tryIds = f.clockSourceId :: rest := by
  unfold tryIds
  rw [if_pos h]
  exact ⟨_, rfl⟩

/-! ### The two passes -/

section Passes

variable {device : UsbControl} {hz : UInt32} {f : StreamFormat}

/-- After SET_CUR to the clocks `asked`, none of which has taken the rate. -/
structure RefusedBy (f : StreamFormat) (hz : UInt32) (asked : List Nat) (s : RateState) : Prop where
  format : s.format = f
  requests : s.log.map Exchange.request = asked.map (setCurRequest f.controlInterfaceNum hz)
  refused : ∀ e ∈ s.log, e.reply.rc ≠ 4

theorem RefusedBy.step {asked : List Nat} {s : RateState} {id : Nat} (h : RefusedBy f hz asked s)
    (hfail : (trySetCur device hz s id).1 = false) : RefusedBy f hz (asked ++ [id]) (trySetCur device hz s id).2 where
  format := h.format
  requests := by
    change (s.log ++ [_]).map Exchange.request = _
    rw [List.map_append, List.map_append, h.requests, ← h.format]
    rfl
  refused := by
    intro e he
    rcases List.mem_append.1 he with he | he
    · exact h.refused e he
    · rw [List.mem_singleton.1 he]
      exact beq_eq_false_iff_ne.1 hfail

/-- A clock that takes the rate ends the log with its acknowledgement. -/
theorem RefusedBy.win {asked : List Nat} {s : RateState} {id : Nat} (h : RefusedBy f hz asked s)
    (hwin : (trySetCur device hz s id).1 = true) :
    ∃ e ∈ (trySetCur device hz s id).2.log, e.Acknowledges f.controlInterfaceNum hz id := by
  refine ⟨s.exchange device (setCurRequest s.format.controlInterfaceNum hz id), ?_, ?_⟩
  · exact List.mem_append_right _ (List.mem_singleton_self _)
  · exact ⟨congrArg (setCurRequest · hz id) (congrArg StreamFormat.controlInterfaceNum h.format), beq_iff_eq.1 hwin⟩

theorem setCurRequest_ne_getCurRequest {c c' i j : Nat} : setCurRequest c hz i ≠ getCurRequest c' j := fun h =>
  absurd (congrArg ControlRequest.bmRequestType h) (show (0x21 : Nat) ≠ 0xA1 by decide)

theorem setCurRequest_ne_getRangeRequest {c c' i j : Nat} : setCurRequest c hz i ≠ getRangeRequest c' j := fun h =>
  absurd (congrArg ControlRequest.bmRequestType h) (show (0x21 : Nat) ≠ 0xA1 by decide)

theorem getRangeRequest_ne_getCurRequest {c c' i j : Nat} : getRangeRequest c i ≠ getCurRequest c' j := fun h =>
  absurd (congrArg ControlRequest.bRequest h) (show REQ_RANGE ≠ REQ_SET_CUR by decide)

/-- After GET_CUR and GET_RANGE to the clocks `asked`, on top of a SET_CUR to all of them. -/
structure DeniedBy (f : StreamFormat) (hz : UInt32) (asked : List Nat) (s : RateState) : Prop where
  format : s.format = f
  requests : s.log.map Exchange.request = f.tryIds.map (setCurRequest f.controlInterfaceNum hz) ++
    asked.flatMap fun id => [getCurRequest f.controlInterfaceNum id, getRangeRequest f.controlInterfaceNum id]
  refused : ∀ e ∈ s.log, ∀ id, ¬ e.Acknowledges f.controlInterfaceNum hz id
  denied : ∀ e ∈ s.log, ∀ id, ¬ e.Reports f.controlInterfaceNum hz id

theorem RefusedBy.deniedBy {s : RateState} (h : RefusedBy f hz f.tryIds s) : DeniedBy f hz [] s where
  format := h.format
  requests := by rw [h.requests, List.flatMap_nil, List.append_nil]
  refused := fun e he _ hack => h.refused e he hack.2
  denied := by
    intro e he id hrep
    have hmem : e.request ∈ s.log.map Exchange.request := List.mem_map_of_mem he
    rw [h.requests, List.mem_map] at hmem
    obtain ⟨i, _, hi⟩ := hmem
    exact setCurRequest_ne_getCurRequest (hi.trans hrep.1)

/-- The two exchanges of a round. -/
theorem tryGetCur_log (s : RateState) (id : Nat) : (tryGetCur device hz s id).2.log = s.log ++
    [s.exchange device (getCurRequest s.format.controlInterfaceNum id),
      (s.after device (getCurRequest s.format.controlInterfaceNum id)).exchange device
        (getRangeRequest s.format.controlInterfaceNum id)] :=
  List.append_assoc ..

/-- Nothing in a round takes the rate. -/
theorem DeniedBy.refused_step {asked : List Nat} {s : RateState} (h : DeniedBy f hz asked s) (id : Nat) :
    ∀ e ∈ (tryGetCur device hz s id).2.log, ∀ i, ¬ e.Acknowledges f.controlInterfaceNum hz i := by
  intro e he i hack
  rw [tryGetCur_log, List.mem_append, List.mem_pair] at he
  rcases he with he | rfl | rfl
  · exact h.refused e he i hack
  · exact setCurRequest_ne_getCurRequest hack.1.symm
  · exact setCurRequest_ne_getRangeRequest hack.1.symm

theorem tryGetCur_fst {s : RateState} {id : Nat} : (tryGetCur device hz s id).1 = true ↔
    (s.transfer device (getCurRequest s.format.controlInterfaceNum id)).rc = 4 ∧
      rd32 (s.transfer device (getCurRequest s.format.controlInterfaceNum id)).data 0 = hz := by
  unfold tryGetCur
  rw [Bool.and_eq_true, beq_iff_eq, beq_iff_eq]
  refine and_congr_right fun hrc => ?_
  rw [if_pos hrc]

theorem DeniedBy.step {asked : List Nat} {s : RateState} {id : Nat} (h : DeniedBy f hz asked s)
    (hfail : (tryGetCur device hz s id).1 = false) : DeniedBy f hz (asked ++ [id]) (tryGetCur device hz s id).2 where
  format := h.format
  requests := by
    rw [tryGetCur_log, List.map_append, h.requests, List.flatMap_append, List.append_assoc, h.format]
    rfl
  refused := h.refused_step id
  denied := by
    intro e he i hrep
    rw [tryGetCur_log, List.mem_append, List.mem_pair] at he
    rcases he with he | rfl | rfl
    · exact h.denied e he i hrep
    · exact Bool.eq_false_iff.1 hfail (tryGetCur_fst.2 hrep.2)
    · exact getRangeRequest_ne_getCurRequest hrep.1

theorem DeniedBy.win {asked : List Nat} {s : RateState} {id : Nat} (h : DeniedBy f hz asked s)
    (hwin : (tryGetCur device hz s id).1 = true) :
    ∃ e ∈ (tryGetCur device hz s id).2.log, e.Reports f.controlInterfaceNum hz id := by
  refine ⟨s.exchange device (getCurRequest s.format.controlInterfaceNum id), ?_, ?_⟩
  · rw [tryGetCur_log]
    exact List.mem_append_right _ List.mem_cons_self
  · exact ⟨congrArg (getCurRequest · id) (congrArg StreamFormat.controlInterfaceNum h.format), tryGetCur_fst.1 hwin⟩

end Passes

/-! ### The negotiation -/

section Negotiation

variable {device : UsbControl} {hz : UInt32} {f : StreamFormat}

theorem RateState.captureRangeForClock_format (s : RateState) (id : Nat) :
    (s.captureRangeForClock device id).format = s.format := by
  unfold captureRangeForClock
  split <;> rfl

theorem RateState.log_prefix_captureRangeForClock (s : RateState) (id : Nat) :
    s.log <+: (s.captureRangeForClock device id).log := by
  unfold captureRangeForClock
  split
  · exact List.prefix_rfl
  · exact List.prefix_append _ _

/-- How a negotiation for a UAC2 format can end. -/
inductive RateOutcome (f : StreamFormat) (hz : UInt32) : Bool → RateState → Prop
  | noClock {s : RateState} (hids : f.tryIds = []) (hformat : s.format = f) : RateOutcome f hz true s
  | taken {s : RateState} {id : Nat} {pre post : List Nat} (hids : f.tryIds = pre ++ id :: post)
      (hformat : s.format = { f with clockSourceId := id })
      (horder : (pre ++ [id]).map (setCurRequest f.controlInterfaceNum hz) <+: s.log.map Exchange.request)
      (hack : ∃ e ∈ s.log, e.Acknowledges f.controlInterfaceNum hz id) : RateOutcome f hz true s
  | fixed {s : RateState} {id : Nat} (hid : id ∈ f.tryIds) (hformat : s.format = { f with clockSourceId := id })
      (horder : f.tryIds.map (setCurRequest f.controlInterfaceNum hz) <+: s.log.map Exchange.request)
      (hrefused : ∀ e ∈ s.log, ∀ i, ¬ e.Acknowledges f.controlInterfaceNum hz i)
      (hrep : ∃ e ∈ s.log, e.Reports f.controlInterfaceNum hz id) : RateOutcome f hz true s
  | refused {s : RateState} (hids : f.tryIds ≠ []) (h : DeniedBy f hz f.tryIds s) : RateOutcome f hz false s

/-- The state after the winner of the first pass is promoted and asked for its ranges. -/
theorem RateOutcome.of_taken {s t : RateState} {id : Nat} {pre post : List Nat} (hids : f.tryIds = pre ++ id :: post)
    (hs : RefusedBy f hz pre s) (hwin : (trySetCur device hz s id).1 = true)
    (hformat : t.format = { f with clockSourceId := id })
    (hlog : t.log = (trySetCur device hz s id).2.log) :
    RateOutcome f hz true (t.captureRangeForClock device id) := by
  have hpre : (trySetCur device hz s id).2.log <+: (t.captureRangeForClock device id).log :=
    hlog ▸ t.log_prefix_captureRangeForClock id
  refine .taken hids ?_ ?_ ?_
  · rw [t.captureRangeForClock_format, hformat]
  · refine List.IsPrefix.trans ?_ (hpre.map _)
    change _ <+: (s.log ++ [_]).map Exchange.request
    rw [List.map_append, List.map_append, hs.requests, ← hs.format]
    exact List.prefix_rfl
  · obtain ⟨e, he, hack⟩ := hs.win hwin
    exact ⟨e, hpre.subset he, hack⟩

theorem setSampleRate_outcome (device : UsbControl) (hz : UInt32) (f : StreamFormat) (rates : List ClockRateRange)
    (h : 0x0200 ≤ f.uacVersion) :
    RateOutcome f hz (setSampleRate device hz ⟨f, rates, []⟩).1 (setSampleRate device hz ⟨f, rates, []⟩).2 := by
  have hstart : RefusedBy f hz [] ⟨f, rates, []⟩ := ⟨rfl, rfl, fun _ he => absurd he List.not_mem_nil⟩
  unfold setSampleRate
  rw [if_pos h]
  dsimp only
  split
  · rename_i hids
    exact .noClock (List.isEmpty_iff.1 hids) rfl
  rename_i hids
  rw [List.isEmpty_iff] at hids
  split
  · -- SET_CUR has a winner
    rename_i id s hfirst
    obtain ⟨pre, post, t, hpre, ht, hwin, hs⟩ := first_some (fun _ _ _ => RefusedBy.step) hstart
      (show (first (trySetCur device hz) _ f.tryIds).1 = some id by rw [hfirst])
    rw [hfirst] at hs
    rw [List.nil_append] at ht
    subst hs
    dsimp only
    split
    · exact .of_taken hpre ht hwin (by rw [← ht.format]; rfl) rfl
    · rename_i hsame
      obtain rfl : id = f.clockSourceId := (not_not.1 hsame).trans (congrArg _ ht.format)
      exact .of_taken hpre ht hwin ht.format rfl
  · rename_i s hfirst
    have hs : RefusedBy f hz f.tryIds s := by
      have := first_none (fun _ _ _ => RefusedBy.step) hstart
        (show (first (trySetCur device hz) _ f.tryIds).1 = none by rw [hfirst])
      rwa [hfirst] at this
    split
    · -- GET_CUR has
      rename_i id s' hsecond
      obtain ⟨pre, post, t, hpre, ht, hwin, hs'⟩ := first_some (fun _ _ _ => DeniedBy.step) hs.deniedBy
        (show (first (tryGetCur device hz) s f.tryIds).1 = some id by rw [hsecond])
      rw [hsecond] at hs'
      rw [List.nil_append] at ht
      subst hs'
      refine .fixed (by rw [hpre]; exact List.mem_append_right _ List.mem_cons_self) ?_ ?_ (ht.refused_step id) (ht.win hwin)
      · rw [← ht.format]
        rfl
      · change _ <+: (tryGetCur device hz t id).2.log.map Exchange.request
        rw [tryGetCur_log, List.map_append, ht.requests, List.append_assoc]
        exact List.prefix_append _ _
    · rename_i s' hsecond
      have hs' := first_none (fun _ _ _ => DeniedBy.step) hs.deniedBy
        (show (first (tryGetCur device hz) s f.tryIds).1 = none by rw [hsecond])
      rw [hsecond] at hs'
      exact .refused hids hs'

/-- The clock led by the resolved one is the first to be asked, whatever the outcome. -/
theorem RateOutcome.head {accepted : Bool} {s : RateState} (h : RateOutcome f hz accepted s) (hid : f.clockSourceId ≠ 0) :
    (s.log.map Exchange.request).head? = some (setCurRequest f.controlInterfaceNum hz f.clockSourceId) := by
  obtain ⟨rest, hids⟩ := StreamFormat.tryIds_eq_cons hid
  have key {asked others : List Nat} (hne : asked ≠ []) (hsplit : f.tryIds = asked ++ others)
      (horder : asked.map (setCurRequest f.controlInterfaceNum hz) <+: s.log.map Exchange.request) :
      (s.log.map Exchange.request).head? = some (setCurRequest f.controlInterfaceNum hz f.clockSourceId) := by
    obtain ⟨id, asked, rfl⟩ := List.exists_cons_of_ne_nil hne
    obtain rfl : f.clockSourceId = id := (List.cons.inj (hids.symm.trans hsplit)).1
    obtain ⟨more, hmore⟩ := horder
    rw [← hmore]
    rfl
  have hne : f.tryIds ≠ [] := hids ▸ List.cons_ne_nil _ _
  cases h with
  | noClock hnil => exact absurd hnil hne
  | @taken s id pre post hpre _ horder =>
    exact key (List.append_ne_nil_of_right_ne_nil pre (List.cons_ne_nil id [])) (by rw [hpre, List.append_cons]) horder
  | fixed _ _ horder => exact key hne (List.append_nil _).symm horder
  | refused _ h =>
    exact key hne (List.append_nil _).symm (h.requests ▸ List.prefix_append _ _)

/-- A pass has asked every clock. -/
theorem refusesRate_of_asked {log : List Exchange} {id : Nat} (hid : f.IsClock id)
    (horder : f.tryIds.map (setCurRequest f.controlInterfaceNum hz) <+: log.map Exchange.request)
    (h : ∀ e ∈ log, ∀ i, ¬ e.Acknowledges f.controlInterfaceNum hz i) :
    RefusesRate log f.controlInterfaceNum hz id := by
  have hmem : setCurRequest f.controlInterfaceNum hz id ∈ log.map Exchange.request :=
    horder.subset (List.mem_map_of_mem (StreamFormat.mem_tryIds.2 hid))
  obtain ⟨e, he, hreq⟩ := List.mem_map.1 hmem
  exact ⟨⟨e, he, hreq⟩, fun e he => h e he id⟩

theorem DeniedBy.deniesRate {s : RateState} (h : DeniedBy f hz f.tryIds s) {id : Nat} (hid : f.IsClock id) :
    DeniesRate s.log f.controlInterfaceNum hz id := by
  have hmem : getCurRequest f.controlInterfaceNum id ∈ s.log.map Exchange.request := by
    rw [h.requests]
    refine List.mem_append_right _ (List.mem_flatMap.2 ⟨id, StreamFormat.mem_tryIds.2 hid, ?_⟩)
    exact List.mem_cons_self
  obtain ⟨e, he, hreq⟩ := List.mem_map.1 hmem
  exact ⟨⟨e, he, hreq⟩, fun e he => h.denied e he id⟩

/-- A UAC2 rate is accepted only if there is no clock to ask, or the clock the format is left with has taken it, or no
clock has and that clock runs at it. It is refused exactly when every clock, the resolved one first, has neither taken
nor reported it, and the format then stays as it was. -/
theorem setSampleRate_confirmed (device : UsbControl) (hz : UInt32) (f : StreamFormat) (rates : List ClockRateRange)
    (h : 0x0200 ≤ f.uacVersion) :
    let r := setSampleRate device hz ⟨f, rates, []⟩
    (r.1 = true → (∀ id, ¬ f.IsClock id) ∨
      (∃ e ∈ r.2.log, e.Acknowledges f.controlInterfaceNum hz r.2.format.clockSourceId) ∨
      ((∀ id, f.IsClock id → RefusesRate r.2.log f.controlInterfaceNum hz id) ∧
        ∃ e ∈ r.2.log, e.Reports f.controlInterfaceNum hz r.2.format.clockSourceId)) ∧
    (r.1 = false ↔ (∃ id, f.IsClock id) ∧ ∀ id, f.IsClock id →
      RefusesRate r.2.log f.controlInterfaceNum hz id ∧ DeniesRate r.2.log f.controlInterfaceNum hz id) ∧
    (r.1 = false → r.2.format = f ∧ r.2.log.map Exchange.request =
      f.tryIds.map (setCurRequest f.controlInterfaceNum hz) ++
        f.tryIds.flatMap fun id => [getCurRequest f.controlInterfaceNum id, getRangeRequest f.controlInterfaceNum id]) ∧
    (f.clockSourceId ≠ 0 →
      (r.2.log.map Exchange.request).head? = some (setCurRequest f.controlInterfaceNum hz f.clockSourceId)) := by
  intro r
  have hout : RateOutcome f hz r.1 r.2 := setSampleRate_outcome device hz f rates h
  refine ⟨?_, ?_, ?_, hout.head⟩
  · intro haccept
    rw [haccept] at hout
    cases hout with
    | noClock hids => exact .inl (StreamFormat.tryIds_isEmpty.1 (List.isEmpty_iff.2 hids))
    | taken _ hformat _ hack =>
      rw [hformat]
      exact .inr (.inl hack)
    | fixed _ hformat horder hrefused hrep =>
      rw [hformat]
      exact .inr (.inr ⟨fun id hid => refusesRate_of_asked hid horder hrefused, hrep⟩)
  · constructor
    · intro hrefuse
      rw [hrefuse] at hout
      cases hout with
      | refused hids hdenied =>
        obtain ⟨id, hid⟩ := List.exists_mem_of_ne_nil _ hids
        refine ⟨⟨id, StreamFormat.mem_tryIds.1 hid⟩, fun id hid => ⟨?_, hdenied.deniesRate hid⟩⟩
        exact refusesRate_of_asked hid (hdenied.requests ▸ List.prefix_append _ _) hdenied.refused
    · rintro ⟨⟨id, hid⟩, hall⟩
      rw [← Bool.not_eq_true]
      intro haccept
      rw [haccept] at hout
      cases hout with
      | noClock hids => exact List.eq_nil_iff_forall_not_mem.1 hids id (StreamFormat.mem_tryIds.2 hid)
      | @taken s winner pre post hids _ _ hack =>
        obtain ⟨e, he, hack⟩ := hack
        have hwinner : f.IsClock winner := StreamFormat.mem_tryIds.1 (hids ▸ List.mem_append_right _ List.mem_cons_self)
        exact (hall winner hwinner).1.2 e he hack
      | @fixed s winner hwinner _ _ _ hrep =>
        obtain ⟨e, he, hrep⟩ := hrep
        exact (hall winner (StreamFormat.mem_tryIds.1 hwinner)).2.2 e he hrep
  · intro hrefuse
    rw [hrefuse] at hout
    cases hout with
    | refused _ hdenied => exact ⟨hdenied.format, hdenied.requests⟩

/-- The resolved clock stalls, the other takes the rate and is promoted. -/
theorem setSampleRate_confirmed_promotes :
    let f : StreamFormat := { clockSourceId := 0x29, candidateClockIds := [0x29, 0x2A], controlInterfaceNum := 1 }
    let device : UsbControl := fun _ q => if q.wIndex = 0x2A01 ∧ q.bmRequestType = 0x21 then ⟨4, []⟩ else ⟨-9, []⟩
    let r := setSampleRate device 48000 ⟨f, [], []⟩
    0x0200 ≤ f.uacVersion ∧ r.1 = true ∧ r.2.format.clockSourceId = 0x2A ∧
      (r.1 = true → (∀ id, ¬ f.IsClock id) ∨ (∃ e ∈ r.2.log, e.Acknowledges 1 48000 r.2.format.clockSourceId) ∨
        ((∀ id, f.IsClock id → RefusesRate r.2.log 1 48000 id) ∧
          ∃ e ∈ r.2.log, e.Reports 1 48000 r.2.format.clockSourceId)) := by
  intro f device r
  exact ⟨by decide, by decide, by decide, (setSampleRate_confirmed device 48000 f [] (by decide)).1⟩

/-- On the wire: four bytes, exactly the rate, to the clock. -/
theorem Exchange.Acknowledges.wire {e : Exchange} {controlInterfaceNum id : Nat} (h : e.Acknowledges controlInterfaceNum hz id)
    (hiface : controlInterfaceNum < 2 ^ 8) :
    e.request.data.length = 4 ∧ rd32 e.request.data 0 = hz ∧ e.request.wIndex >>> 8 = id := by
  rw [h.1]
  exact ⟨rfl, rd32_rateBytes hz, wIndex_entity hiface⟩

/-- A UAC1 endpoint takes the rate in three bytes or, that refused, in four. -/
theorem setSampleRate_uac1 {rates : List ClockRateRange} (h : f.uacVersion < 0x0200) :
    (setSampleRate device hz ⟨f, rates, []⟩).1 = true ↔ ∃ e ∈ (setSampleRate device hz ⟨f, rates, []⟩).2.log,
      e.request.wIndex = f.endpointAddress ∧ e.reply.rc = e.request.data.length := by
  have hthree : ((rateBytes hz).take 3).length = 3 := rfl
  unfold setSampleRate
  rw [if_neg (Nat.not_le.2 h)]
  dsimp only
  split
  · rename_i hrc
    constructor
    · intro hfour
      exact ⟨_, List.mem_append_right _ (List.mem_singleton_self _), rfl, beq_iff_eq.1 hfour⟩
    · rintro ⟨e, he, -, hack⟩
      rcases List.mem_append.1 he with he | he
      · rw [List.mem_singleton.1 he] at hack
        exact absurd hack hrc
      · rw [List.mem_singleton.1 he] at hack
        exact beq_iff_eq.2 hack
  · rename_i hrc
    exact ⟨fun _ => ⟨_, List.mem_singleton_self _, rfl, not_not.1 hrc⟩, fun _ => rfl⟩

end Negotiation

/-- After `selectAltSetting` the clocks to ask are the clock entities of the device and the one resolved for the
setting. -/
theorem Topology.isClock_streamFormat (t : Topology) (isHs : Bool) (req : StreamRequest) (alt : InterfaceDescriptor)
    (scan : AltScan) (iso : Endpoint) (id : Nat) :
    (t.streamFormat isHs req alt scan iso).IsClock id ↔
      id ≠ 0 ∧ (id = t.resolveClock scan.altTerminalLink ∨ ∃ ce ∈ t.clockEntities, ce.id = id) := by
  unfold StreamFormat.IsClock
  refine and_congr_right fun _ => or_congr_right ?_
  change id ∈ t.candidateClockIds ↔ _
  unfold candidateClockIds
  simp only [List.mem_append, List.mem_map, List.mem_filter, beq_iff_eq, bne_iff_ne]
  constructor
  · rintro (⟨ce, ⟨hce, -⟩, rfl⟩ | ⟨ce, ⟨hce, -⟩, rfl⟩) <;> exact ⟨ce, hce, rfl⟩
  · rintro ⟨ce, hce, rfl⟩
    by_cases hsource : ce.subtype = AC_CLOCK_SOURCE
    · exact .inl ⟨ce, ⟨hce, hsource⟩, rfl⟩
    · exact .inr ⟨ce, ⟨hce, hsource⟩, rfl⟩

end UacDriver
