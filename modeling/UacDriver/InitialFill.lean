import UacDriver.ImplicitTransfer
import UacDriver.StartupPrime

/-!
# The wire payload of the initial submission

The fill loop of `submitIsoPump` stores every packet at the sum of the planned lengths before it and then shortens the
descriptors, while libusb reads the packets at the sums of the final lengths. The two agree as long as no packet that
was drained short is followed by one that drains anything. What decides is when the render thread commits: `Gapless` is
stated over the bytes committed by the time of each drain. The loop never looks at a byte, so that it can be run on
other bytes with the same commits; `mapBytes` does that.
-/

namespace UacDriver

open Circular Runs

/-! ### The fill loop over any drain -/

section Prime

variable {σ : Type*} (drain : Nat → Nat → σ → σ × List UInt8)

/-- The loop of `Playback.primeTransfer` over a drain that may depend on the packet. -/
def primeWith : Nat → Nat → List Nat → σ × Transfer → σ × Transfer
  | _, _, [], st => st
  | p, offset, bytes :: rest, (s, x) =>
    let d := drain p bytes s
    primeWith (p + 1) (offset + bytes) rest (d.1, (x.storeAt offset d.2).setLength p d.2.length)

/-- The drains of the loop alone: the state after them and the bytes of each packet. -/
def primeDrains : Nat → List Nat → σ → σ × List (List UInt8)
  | _, [], s => (s, [])
  | p, bytes :: rest, s =>
    let d := drain p bytes s
    let r := primeDrains (p + 1) rest d.1
    (r.1, d.2 :: r.2)

variable {drain}

theorem primeWith_fst (p offset : Nat) (rest : List Nat) (s : σ) (x : Transfer) :
    (primeWith drain p offset rest (s, x)).1 = (primeDrains drain p rest s).1 := by
  induction rest generalizing p offset s x with
  | nil => rfl
  | cons bytes rest ih => exact ih ..

@[simp] theorem primeDrains_length (p : Nat) (rest : List Nat) (s : σ) :
    (primeDrains drain p rest s).2.length = rest.length := by
  induction rest generalizing p s with
  | nil => rfl
  | cons bytes rest ih => simp [primeDrains, ih]

variable (drain) in
theorem primeWith_lengths {p : Nat} (offset : Nat) {rest : List Nat} (s : σ) {x : Transfer}
    (hp : p + rest.length = x.numIsoPackets) :
    (primeWith drain p offset rest (s, x)).2.lengths =
      x.lengths.take p ++ (primeDrains drain p rest s).2.map List.length := by
  induction rest generalizing p offset s x with
  | nil =>
    rw [List.length_nil, Nat.add_zero] at hp
    simp [primeWith, primeDrains, List.take_of_length_le, hp]
  | cons bytes rest ih =>
    rw [List.length_cons] at hp
    have hlt : p < x.lengths.length := by
      rw [Transfer.lengths_length]
      omega
    have htake : (x.lengths.set p (drain p bytes s).2.length).take (p + 1) =
        x.lengths.take p ++ [(drain p bytes s).2.length] := by
      rw [List.take_succ_eq_append_getElem (by simpa using hlt), List.take_set,
        List.set_eq_of_length_le (List.length_take_le ..), List.getElem_set_self]
    rw [primeWith, ih _ _ (by
        rw [Transfer.numIsoPackets_setLength]; exact (by omega : p + 1 + rest.length = x.numIsoPackets)),
      Transfer.lengths_setLength, Transfer.lengths_storeAt, htake]
    simp [primeDrains]

/-- Nothing below the offset is stored to. -/
theorem primeWith_buffer_below {p offset : Nat} {rest : List Nat} (s : σ) (x : Transfer) {i : Nat} (hi : i < offset) :
    (primeWith drain p offset rest (s, x)).2.buffer i = x.buffer i := by
  induction rest generalizing p offset s x with
  | nil => rfl
  | cons bytes rest ih =>
    rw [primeWith, ih _ _ (by omega : i < offset + bytes)]
    exact blit_apply_of_not (by omega)

theorem primeWith_buffer_of_nil {p offset : Nat} {rest : List Nat} (s : σ) (x : Transfer)
    (h : ∀ out ∈ (primeDrains drain p rest s).2, out = []) :
    (primeWith drain p offset rest (s, x)).2.buffer = x.buffer := by
  induction rest generalizing p offset s x with
  | nil => rfl
  | cons bytes rest ih =>
    have hnil : (drain p bytes s).2 = [] := h _ List.mem_cons_self
    rw [primeWith, ih _ _ fun out ho => h out (List.mem_cons_of_mem _ ho)]
    show blit x.buffer offset (drain p bytes s).2 = x.buffer
    rw [hnil, blit_nil]

/-- No packet that was drained short is followed by one that drained anything. -/
def NoGap : List Nat → List Nat → Prop
  | bytes :: plan, n :: drained => if n = bytes then NoGap plan drained else ∀ m ∈ drained, m = 0
  | _, _ => True

/-- The bytes up to the end of the first packet that was drained short. -/
def gapAt : List Nat → List Nat → Nat
  | bytes :: plan, n :: drained => if n = bytes then n + gapAt plan drained else n
  | _, _ => 0

/-- Without a gap the packets read back to back are what was drained. -/
theorem primeWith_copyOut {p : Nat} (offset : Nat) {rest : List Nat} (s : σ) {x : Transfer}
    (hgap : NoGap rest ((primeDrains drain p rest s).2.map List.length)) :
    copyOut (primeWith drain p offset rest (s, x)).2.buffer 0
        (offset + ((primeDrains drain p rest s).2.map List.length).sum) =
      copyOut x.buffer 0 offset ++ (primeDrains drain p rest s).2.flatten := by
  induction rest generalizing p offset s x with
  | nil => simp [primeWith, primeDrains]
  | cons bytes rest ih =>
    obtain ⟨out, hout⟩ : ∃ out, out = (drain p bytes s).2 := ⟨_, rfl⟩
    have hstore : copyOut (blit x.buffer offset out) 0 (offset + out.length) = copyOut x.buffer 0 offset ++ out := by
      rw [copyOut_add, copyOut_blit_disjoint (by omega), Nat.zero_add, copyOut_blit_self]
    simp only [primeDrains, List.map_cons, List.sum_cons, List.flatten_cons, NoGap, ← hout] at hgap ⊢
    split at hgap
    · rename_i hfull
      have hih := ih (p := p + 1) (offset + bytes) (drain p bytes s).1
        (x := (x.storeAt offset out).setLength p out.length) hgap
      have hbuffer : ((x.storeAt offset out).setLength p out.length).buffer = blit x.buffer offset out := rfl
      have hoffset : offset + bytes = offset + out.length := by omega
      rw [hbuffer, hoffset, hstore, List.append_assoc] at hih
      simp only [primeWith, ← hout]
      rw [hoffset, ← Nat.add_assoc]
      exact hih
    · -- the packet is short: the rest of the loop stores nothing
      have hnil : ∀ o ∈ (primeDrains drain (p + 1) rest (drain p bytes s).1).2, o = [] := by
        intro o ho
        exact List.eq_nil_of_length_eq_zero (hgap _ (List.mem_map_of_mem ho))
      have hsum : ((primeDrains drain (p + 1) rest (drain p bytes s).1).2.map List.length).sum = 0 :=
        List.sum_eq_zero hgap
      have hflat : (primeDrains drain (p + 1) rest (drain p bytes s).1).2.flatten = [] :=
        List.flatten_eq_nil_iff.2 hnil
      simp only [primeWith, ← hout]
      rw [hsum, Nat.add_zero, hflat, List.append_nil, primeWith_buffer_of_nil _ _ hnil]
      exact hstore

/-- Behind a gap the packets are read from bytes that the loop did not store. -/
theorem primeWith_gap {p : Nat} (offset : Nat) {rest : List Nat} (s : σ) {x : Transfer}
    (hle : ∀ p b s, (drain p b s).2.length ≤ b)
    (hgap : ¬NoGap rest ((primeDrains drain p rest s).2.map List.length)) :
    gapAt rest ((primeDrains drain p rest s).2.map List.length) < ((primeDrains drain p rest s).2.map List.length).sum ∧
      (primeWith drain p offset rest (s, x)).2.buffer
          (offset + gapAt rest ((primeDrains drain p rest s).2.map List.length)) =
        x.buffer (offset + gapAt rest ((primeDrains drain p rest s).2.map List.length)) := by
  induction rest generalizing p offset s x with
  | nil => exact absurd trivial hgap
  | cons bytes rest ih =>
    obtain ⟨out, hout⟩ : ∃ out, out = (drain p bytes s).2 := ⟨_, rfl⟩
    have hlen : out.length ≤ bytes := hout ▸ hle p bytes s
    simp only [primeDrains, List.map_cons, List.sum_cons, NoGap, gapAt, ← hout] at hgap ⊢
    split at hgap
    · rename_i hfull
      obtain ⟨hlt, hsame⟩ := ih (p := p + 1) (offset + bytes) (drain p bytes s).1
        (x := (x.storeAt offset out).setLength p out.length) hgap
      rw [if_pos hfull]
      refine ⟨by omega, ?_⟩
      have hoffset : offset + bytes = offset + out.length := by omega
      rw [hoffset] at hsame
      simp only [primeWith, ← hout]
      rw [hoffset, ← Nat.add_assoc]
      refine hsame.trans ?_
      exact blit_apply_of_not (by omega)
    · rename_i hshort
      rw [if_neg hshort]
      have hpos : 0 < ((primeDrains drain (p + 1) rest (drain p bytes s).1).2.map List.length).sum := by
        refine Nat.pos_of_ne_zero fun h0 => hgap fun m hm => ?_
        exact List.sum_eq_zero_iff.1 h0 m hm
      refine ⟨by omega, ?_⟩
      simp only [primeWith, ← hout]
      rw [primeWith_buffer_below _ _ (by omega)]
      exact blit_apply_of_not (by omega)

end Prime

/-! ### When the bytes are committed -/

/-- Over the packets of a transfer, each with the bytes committed by the time of its drain and its planned length: as
long as the planned bytes are there the next packet is as well placed as the last. Once they are not, no byte is
committed before a later packet that asks for any. -/
def Gapless : Nat → List (Nat × Nat) → Prop
  | _, [] => True
  | base, (arrived, planned) :: rest =>
    if base + planned ≤ arrived then Gapless (base + planned) rest else ∀ q ∈ rest, 0 < q.2 → q.1 = arrived

instance Gapless.decidable : ∀ (base : Nat) (packets : List (Nat × Nat)), Decidable (Gapless base packets)
  | _, [] => .isTrue trivial
  | base, (arrived, planned) :: rest =>
    haveI := Gapless.decidable (base + planned) rest
    inferInstanceAs (Decidable (if base + planned ≤ arrived then _ else _))

namespace PlaybackRun

variable {w : Nat} {s : PlaybackRun w} {env : Nat → List PlaybackAct}

/-- The bytes committed by the time each packet is drained, with the packet's planned length. -/
def arrivals (env : Nat → List PlaybackAct) : Nat → List Nat → PlaybackRun w → List (Nat × Nat)
  | _, [], _ => []
  | p, bytes :: rest, s =>
    ((run step s (env p)).committed.length, bytes) :: arrivals env (p + 1) rest (interleaved env p bytes s).1

theorem Inv.committed_length (h : s.Inv) : s.committed.length = s.drained.length + s.pb.ring.used := by
  rw [h.fifo, List.length_append, Ring.contents_length]

/-- A drain behind a stretch of the producer takes what is committed and not drained, up to the planned bytes. -/
theorem interleaved_taken (h : s.Inv) (henv : ∀ p, ProducerActs (env p)) (p bytes : Nat) :
    (interleaved env p bytes s).1.Inv ∧
      (interleaved env p bytes s).2.length = min ((run step s (env p)).committed.length - s.drained.length) bytes ∧
      (interleaved env p bytes s).1.drained.length = s.drained.length + (interleaved env p bytes s).2.length ∧
      s.drained.length ≤ (run step s (env p)).committed.length := by
  obtain ⟨hinv, -, -, -⟩ := h.produce (henv p)
  have hdrained := run_drained (henv p) s
  have hcommitted := hinv.committed_length
  rw [hdrained] at hcommitted
  refine ⟨hinv.drain bytes, ?_, ?_, by omega⟩
  · rw [interleaved, Playback.drainRing_length, Playback.drainCount, hcommitted, Nat.add_sub_cancel_left]
  · rw [interleaved_drained henv, List.length_append]

/-- Nothing is drained from packet `p` on exactly if nothing is committed before a packet that asks for bytes. -/
theorem starved_iff (h : s.Inv) (henv : ∀ p, ProducerActs (env p)) (p : Nat) (plan : List Nat) :
    (∀ q ∈ arrivals env p plan s, 0 < q.2 → q.1 = s.drained.length) ↔
      ∀ n ∈ (primeDrains (interleaved env) p plan s).2.map List.length, n = 0 := by
  induction plan generalizing p s with
  | nil => simp [arrivals, primeDrains]
  | cons bytes plan ih =>
    obtain ⟨hinv, hlen, hdrained, hle⟩ := interleaved_taken h henv p bytes
    have hrest := ih hinv (p + 1)
    simp only [arrivals, primeDrains, List.map_cons, List.forall_mem_cons]
    rw [← hrest]
    have hhead : (0 < bytes → (run step s (env p)).committed.length = s.drained.length) ↔
        (interleaved env p bytes s).2.length = 0 := by
      rw [hlen]
      omega
    rw [hhead]
    refine and_congr_right fun h0 => ?_
    have hsame : (interleaved env p bytes s).1.drained.length = s.drained.length := by omega
    rw [hsame]

/-- The commits leave no gap exactly if the drains do not. -/
theorem gapless_iff (h : s.Inv) (henv : ∀ p, ProducerActs (env p)) (p : Nat) (plan : List Nat) :
    Gapless s.drained.length (arrivals env p plan s) ↔
      NoGap plan ((primeDrains (interleaved env) p plan s).2.map List.length) := by
  induction plan generalizing p s with
  | nil => exact Iff.rfl
  | cons bytes plan ih =>
    obtain ⟨hinv, hlen, hdrained, hle⟩ := interleaved_taken h henv p bytes
    simp only [arrivals, primeDrains, List.map_cons, Gapless, NoGap]
    by_cases hfull : s.drained.length + bytes ≤ (run step s (env p)).committed.length
    · have hout : (interleaved env p bytes s).2.length = bytes := by omega
      rw [if_pos hfull, if_pos hout, ← ih hinv (p + 1), hdrained, hout]
    · have hout : (interleaved env p bytes s).2.length ≠ bytes := by omega
      have hall : (run step s (env p)).committed.length = (interleaved env p bytes s).1.drained.length := by omega
      rw [if_neg hfull, if_neg hout, hall]
      exact starved_iff hinv henv (p + 1) plan

end PlaybackRun

/-! ### Other bytes, same commits -/

theorem map_copyOut (f : UInt8 → UInt8) (mem : Nat → UInt8) (off n : Nat) :
    (copyOut mem off n).map f = copyOut (f ∘ mem) off n := by
  simp [copyOut]

theorem comp_blit (f : UInt8 → UInt8) (mem : Nat → UInt8) (off : Nat) (xs : List UInt8) :
    f ∘ blit mem off xs = blit (f ∘ mem) off (xs.map f) := by
  funext i
  rw [Function.comp_apply, blit_apply, blit_apply, List.getElem?_map]
  split
  · cases xs[i - off]? <;> rfl
  · rfl

/-- The ring with every byte replaced. -/
def Playback.mapBytes {w : Nat} (f : UInt8 → UInt8) (p : Playback w) : Playback w :=
  { p with ring := { p.ring with data := f ∘ p.ring.data } }

namespace Playback

variable {w : Nat} (f : UInt8 → UInt8) (p : Playback w)

theorem preparePlaybackWrite_mapBytes (frames : Int) :
    (p.mapBytes f).preparePlaybackWrite frames =
      ((p.preparePlaybackWrite frames).1.mapBytes f, (p.preparePlaybackWrite frames).2) := by
  have hstride : (p.mapBytes f).stride = p.stride := rfl
  have hadmissible : (p.mapBytes f).admissible = p.admissible := rfl
  unfold preparePlaybackWrite
  rw [hstride, hadmissible]
  by_cases hargs : frames ≤ 0 ∨ p.stride = 0
  · rw [if_pos hargs, if_pos hargs]
  rw [if_neg hargs, if_neg hargs]
  dsimp only
  by_cases hzero : min frames.toNat p.admissible = 0
  · rw [if_pos hzero, if_pos hzero]
    rfl
  · rw [if_neg hzero, if_neg hzero]
    rfl

theorem store_mapBytes (off : Nat) (xs : List UInt8) :
    (p.mapBytes f).store off (xs.map f) = (p.store off xs).mapBytes f := by
  simp only [store, mapBytes, comp_blit]

theorem commitPlaybackWrite_mapBytes (region : PlaybackWriteRegion w) :
    (p.mapBytes f).commitPlaybackWrite region = (p.commitPlaybackWrite region).mapBytes f := by
  unfold commitPlaybackWrite
  split <;> rfl

theorem drainRing_mapBytes (bytes : Nat) :
    (p.mapBytes f).drainRing bytes = ((p.drainRing bytes).1.mapBytes f, (p.drainRing bytes).2.map f) := by
  have hcount : (p.mapBytes f).drainCount bytes = p.drainCount bytes := rfl
  have hread (n : Nat) : (p.mapBytes f).ring.readAt p.ring.tail n = (p.ring.readAt p.ring.tail n).map f := by
    rw [Ring.readAt, Ring.readAt, List.map_append, map_copyOut, map_copyOut]
    rfl
  unfold drainRing
  rw [hcount]
  dsimp only
  by_cases hpos : 0 < p.drainCount bytes
  · simp only [if_pos hpos]
    exact Prod.ext rfl (hread _)
  · simp only [if_neg hpos]
    rfl

end Playback

def PlaybackAct.mapBytes (f : UInt8 → UInt8) : PlaybackAct → PlaybackAct
  | .fillFirst o xs => .fillFirst o (xs.map f)
  | .fillSecond o xs => .fillSecond o (xs.map f)
  | a => a

namespace PlaybackRun

variable {w : Nat} {s : PlaybackRun w} {env : Nat → List PlaybackAct}

def mapBytes (f : UInt8 → UInt8) (s : PlaybackRun w) : PlaybackRun w :=
  { s with pb := s.pb.mapBytes f, committed := s.committed.map f, drained := s.drained.map f }

/-- No step looks at a byte. -/
theorem step_mapBytes (f : UInt8 → UInt8) (s : PlaybackRun w) (a : PlaybackAct) :
    (s.mapBytes f).step (a.mapBytes f) = (s.step a).mapBytes f := by
  have hregion : (s.mapBytes f).region = s.region := rfl
  have hpb : (s.mapBytes f).pb = s.pb.mapBytes f := rfl
  cases a with
  | prepare frames =>
    simp only [PlaybackAct.mapBytes, step, mapBytes, Playback.preparePlaybackWrite_mapBytes]
  | fillFirst o xs =>
    simp only [PlaybackAct.mapBytes, step, List.length_map, hregion]
    by_cases hfit : o + xs.length ≤ s.region.firstBytes
    · rw [if_pos hfit, if_pos hfit, hpb, Playback.store_mapBytes]
      rfl
    · rw [if_neg hfit, if_neg hfit]
  | fillSecond o xs =>
    simp only [PlaybackAct.mapBytes, step, List.length_map, hregion]
    by_cases hfit : o + xs.length ≤ s.region.secondBytes
    · rw [if_pos hfit, if_pos hfit, hpb, Playback.store_mapBytes]
      rfl
    · rw [if_neg hfit, if_neg hfit]
  | commit =>
    have hbytes : (s.mapBytes f).regionBytes = s.regionBytes.map f := by
      rw [regionBytes, regionBytes, List.map_append, map_copyOut, map_copyOut]
      rfl
    simp only [PlaybackAct.mapBytes, step, hbytes]
    simp only [mapBytes, Playback.commitPlaybackWrite_mapBytes, List.map_append]
  | abandon => rfl
  | drain bytes =>
    simp only [PlaybackAct.mapBytes, step, mapBytes, Playback.drainRing_mapBytes, List.map_append]
  | policy started target prime headroom => rfl

theorem run_mapBytes (f : UInt8 → UInt8) (s : PlaybackRun w) (as : List PlaybackAct) :
    run step (s.mapBytes f) (as.map (·.mapBytes f)) = (run step s as).mapBytes f := by
  induction as generalizing s with
  | nil => rfl
  | cons a as ih => rw [List.map_cons, run_cons, step_mapBytes, ih, run_cons]

theorem producerActs_mapBytes (f : UInt8 → UInt8) {as : List PlaybackAct} (has : ProducerActs as) :
    ProducerActs (as.map (·.mapBytes f)) := by
  intro bytes hmem
  obtain ⟨a, ha, he⟩ := List.mem_map.1 hmem
  cases a with
  | drain b => exact has b ha
  | _ => cases he

theorem interleaved_mapBytes (f : UInt8 → UInt8) (env : Nat → List PlaybackAct) (p bytes : Nat) (s : PlaybackRun w) :
    interleaved (fun p => (env p).map (·.mapBytes f)) p bytes (s.mapBytes f) =
      ((interleaved env p bytes s).1.mapBytes f, (interleaved env p bytes s).2.map f) := by
  have hdrain := step_mapBytes f (run step s (env p)) (.drain bytes)
  simp only [interleaved, run_mapBytes]
  refine Prod.ext hdrain ?_
  show (((run step s (env p)).pb.mapBytes f).drainRing bytes).2 = _
  rw [Playback.drainRing_mapBytes]

theorem primeDrains_mapBytes (f : UInt8 → UInt8) (env : Nat → List PlaybackAct) (p : Nat) (plan : List Nat)
    (s : PlaybackRun w) :
    primeDrains (interleaved fun p => (env p).map (·.mapBytes f)) p plan (s.mapBytes f) =
      ((primeDrains (interleaved env) p plan s).1.mapBytes f,
        (primeDrains (interleaved env) p plan s).2.map (List.map f)) := by
  induction plan generalizing p s with
  | nil => rfl
  | cons bytes plan ih => simp only [primeDrains, interleaved_mapBytes, ih, List.map_cons]

theorem primeDrains_inv (h : s.Inv) (henv : ∀ p, ProducerActs (env p)) (p : Nat) (plan : List Nat) :
    (primeDrains (interleaved env) p plan s).1.Inv := by
  induction plan generalizing p s with
  | nil => exact h
  | cons bytes plan ih => exact ih (interleaved_taken h henv p bytes).1 (p + 1)

theorem primeDrains_drained (henv : ∀ p, ProducerActs (env p)) (p : Nat) (plan : List Nat) (s : PlaybackRun w) :
    (primeDrains (interleaved env) p plan s).1.drained =
      s.drained ++ (primeDrains (interleaved env) p plan s).2.flatten := by
  induction plan generalizing p s with
  | nil => exact (List.append_nil _).symm
  | cons bytes plan ih =>
    simp only [primeDrains]
    rw [ih, interleaved_drained henv, List.append_assoc, List.flatten_cons]

theorem interleaved_length_le (env : Nat → List PlaybackAct) (p bytes : Nat) (s : PlaybackRun w) :
    (interleaved env p bytes s).2.length ≤ bytes := by
  rw [interleaved, Playback.drainRing_length]
  exact Playback.drainCount_le _

end PlaybackRun

/-! ### All initial transfers -/

open PlaybackRun

variable {w : Nat}

/-- The fill loop over one transfer; the render thread does `env p` before the drain of packet `p`. -/
def fillTransfer (env : Nat → List PlaybackAct) (st : PlaybackRun w × Transfer) : PlaybackRun w × Transfer :=
  primeWith (interleaved env) 0 0 st.2.lengths st

/-- The fill loop over the first `n` transfers. -/
def fillTransfers (env : Nat → Nat → List PlaybackAct) (s : PlaybackRun w) (xs : Nat → Transfer) :
    Nat → PlaybackRun w × (Nat → Transfer)
  | 0 => (s, xs)
  | n + 1 =>
    let r := fillTransfers env s xs n
    let filled := fillTransfer (env n) (r.1, r.2 n)
    (filled.1, Function.update r.2 n filled.2)

/-- What intact means for one transfer, in terms of its buffer and of what was drained. -/
theorem fillTransfer_payload_iff {env : Nat → List PlaybackAct} (henv : ∀ p, ProducerActs (env p)) (s : PlaybackRun w)
    (x : Transfer) :
    (fillTransfer env (s, x)).1.drained = s.drained ++ (fillTransfer env (s, x)).2.payload ↔
      copyOut (fillTransfer env (s, x)).2.buffer 0 ((primeDrains (interleaved env) 0 x.lengths s).2.map List.length).sum =
        (primeDrains (interleaved env) 0 x.lengths s).2.flatten := by
  have hlengths := primeWith_lengths (interleaved env) 0 s (x := x)
    (show 0 + x.lengths.length = x.numIsoPackets by simp)
  rw [List.take_zero, List.nil_append] at hlengths
  rw [Transfer.payload_eq_copyOut, fillTransfer, hlengths, primeWith_fst, primeDrains_drained henv, List.append_cancel_left_eq]
  exact eq_comm

theorem fillTransfers_inv {env : Nat → Nat → List PlaybackAct} (henv : ∀ t p, ProducerActs (env t p)) {s : PlaybackRun w}
    (hs : s.Inv) (xs : Nat → Transfer) (n : Nat) : (fillTransfers env s xs n).1.Inv := by
  induction n with
  | zero => exact hs
  | succ n ih =>
    show (fillTransfer (env n) _).1.Inv
    rw [fillTransfer, primeWith_fst]
    exact primeDrains_inv ih (henv n) 0 _

/-- A transfer is as it was until its turn and is left alone after it. -/
theorem fillTransfers_apply (env : Nat → Nat → List PlaybackAct) (s : PlaybackRun w) (xs : Nat → Transfer) (n t : Nat) :
    (fillTransfers env s xs n).2 t =
      if t < n then (fillTransfer (env t) ((fillTransfers env s xs t).1, xs t)).2 else xs t := by
  induction n generalizing t with
  | zero => rfl
  | succ n ih =>
    show Function.update (fillTransfers env s xs n).2 n _ t = _
    rcases eq_or_ne t n with rfl | hne
    · rw [Function.update_self, if_pos (by omega), ih, if_neg (by omega)]
    · rw [Function.update_of_ne hne, ih]
      by_cases hlt : t < n
      · rw [if_pos hlt, if_pos (by omega)]
      · rw [if_neg hlt, if_neg (by omega)]

theorem fillTransfers_mapBytes (f : UInt8 → UInt8) (env : Nat → Nat → List PlaybackAct) (s : PlaybackRun w)
    (xs : Nat → Transfer) (n : Nat) :
    (fillTransfers (fun t p => (env t p).map (·.mapBytes f)) (s.mapBytes f) xs n).1 =
      (fillTransfers env s xs n).1.mapBytes f := by
  induction n with
  | zero => rfl
  | succ n ih =>
    show (fillTransfer _ _).1 = (fillTransfer _ _).1.mapBytes f
    have hlengths : (fillTransfers (fun t p => (env t p).map (·.mapBytes f)) (s.mapBytes f) xs n).2 n =
        (fillTransfers env s xs n).2 n := by
      rw [fillTransfers_apply, fillTransfers_apply, if_neg (by omega), if_neg (by omega)]
    rw [ih, hlengths, fillTransfer, fillTransfer, primeWith_fst, primeWith_fst, primeDrains_mapBytes]

/-- When the transfers are submitted, each holds what the loop drained for it: read at the sums of the final lengths
its packets are the bytes that left the ring during its turn, in order. -/
def WireIntact (env : Nat → Nat → List PlaybackAct) (s : PlaybackRun w) (xs : Nat → Transfer) (n : Nat) : Prop :=
  ∀ t < n, (fillTransfers env s xs (t + 1)).1.drained =
    (fillTransfers env s xs t).1.drained ++ ((fillTransfers env s xs n).2 t).payload

theorem wireIntact_iff_each {env : Nat → Nat → List PlaybackAct} {s : PlaybackRun w} {xs : Nat → Transfer} {n : Nat} :
    WireIntact env s xs n ↔ ∀ t < n,
      let before := (fillTransfers env s xs t).1
      let filled := fillTransfer (env t) (before, xs t)
      filled.1.drained = before.drained ++ filled.2.payload := by
  refine forall_congr' fun t => forall_congr' fun ht => ?_
  have hbefore : (fillTransfers env s xs t).2 t = xs t := by rw [fillTransfers_apply, if_neg (by omega)]
  have hafter : (fillTransfers env s xs (t + 1)).1 =
      (fillTransfer (env t) ((fillTransfers env s xs t).1, (fillTransfers env s xs t).2 t)).1 := rfl
  rw [fillTransfers_apply, if_pos ht, hafter, hbefore]

theorem exists_byte_ne (b : UInt8) : ∃ c : UInt8, c ≠ b := by
  by_cases h : b = 0
  · exact ⟨1, by rw [h]; decide⟩
  · exact ⟨0, Ne.symm h⟩

/-- A gap is seen on the wire as soon as the bytes drained differ from what the transfer held there. -/
theorem noGap_of_intact {env : Nat → List PlaybackAct} (henv : ∀ p, ProducerActs (env p)) {s : PlaybackRun w}
    {x : Transfer} {c : UInt8}
    (hc : c ≠ x.buffer (gapAt x.lengths ((primeDrains (interleaved env) 0 x.lengths s).2.map List.length)))
    (hall : ∀ out ∈ (primeDrains (interleaved env) 0 x.lengths s).2, ∀ b ∈ out, b = c)
    (h : (fillTransfer env (s, x)).1.drained = s.drained ++ (fillTransfer env (s, x)).2.payload) :
    NoGap x.lengths ((primeDrains (interleaved env) 0 x.lengths s).2.map List.length) := by
  by_contra hgap
  obtain ⟨hlt, hkept⟩ := primeWith_gap 0 s (x := x) (interleaved_length_le env) hgap
  rw [fillTransfer_payload_iff henv] at h
  generalize (primeDrains (interleaved env) 0 x.lengths s).2 = outs at *
  generalize gapAt x.lengths (outs.map List.length) = gap at *
  rw [Nat.zero_add] at hkept
  have hread : outs.flatten[gap]? = some (x.buffer gap) := by
    rw [← h, getElem?_copyOut hlt, Nat.zero_add]
    exact congrArg some hkept
  obtain ⟨out, hout, hb⟩ := List.mem_flatten.1 (List.mem_of_getElem? hread)
  exact hc (hall out hout _ hb).symm

/-- For every packet plan and every interleaving of producer commits with the fill loop of `submitIsoPump`: the wire
payload of all initial transfers is intact for every content exactly if the commits leave no gap in any of them. -/
theorem initial_wire_intact_iff {env : Nat → Nat → List PlaybackAct} (henv : ∀ t p, ProducerActs (env t p))
    {s : PlaybackRun w} (hs : s.Inv) (xs : Nat → Transfer) (n : Nat) :
    (∀ f : UInt8 → UInt8, WireIntact (fun t p => (env t p).map (·.mapBytes f)) (s.mapBytes f) xs n) ↔
      ∀ t < n,
        let before := (fillTransfers env s xs t).1
        Gapless before.drained.length (arrivals (env t) 0 (xs t).lengths before) := by
  have henv' (f : UInt8 → UInt8) (t p : Nat) : ProducerActs ((env t p).map (·.mapBytes f)) :=
    producerActs_mapBytes f (henv t p)
  -- the drains on other bytes are those on the given ones
  have hlens (f : UInt8 → UInt8) (t : Nat) :
      (primeDrains (interleaved fun p => (env t p).map (·.mapBytes f)) 0 (xs t).lengths
        ((fillTransfers env s xs t).1.mapBytes f)).2.map List.length =
      (primeDrains (interleaved (env t)) 0 (xs t).lengths (fillTransfers env s xs t).1).2.map List.length := by
    rw [primeDrains_mapBytes, List.map_map]
    exact List.map_congr_left fun out _ => List.length_map _
  simp only [wireIntact_iff_each, fillTransfers_mapBytes]
  constructor
  · intro h t ht
    rw [gapless_iff (fillTransfers_inv henv hs xs t) (henv t)]
    obtain ⟨c, hc⟩ := exists_byte_ne ((xs t).buffer (gapAt (xs t).lengths
      ((primeDrains (interleaved (env t)) 0 (xs t).lengths (fillTransfers env s xs t).1).2.map List.length)))
    rw [← hlens (fun _ => c)] at hc ⊢
    refine noGap_of_intact (henv' (fun _ => c) t) hc ?_ (h (fun _ => c) t ht)
    intro out hout b hb
    rw [primeDrains_mapBytes] at hout
    obtain ⟨out', -, rfl⟩ := List.mem_map.1 hout
    obtain ⟨_, -, rfl⟩ := List.mem_map.1 hb
    rfl
  · intro h f t ht
    have hgap := (gapless_iff (fillTransfers_inv henv hs xs t) (henv t) 0 (xs t).lengths).1 (h t ht)
    rw [← hlens f] at hgap
    rw [fillTransfer_payload_iff (henv' f t)]
    have hcopy := primeWith_copyOut 0 _ (x := xs t) hgap
    rw [Nat.zero_add, copyOut_zero, List.nil_append] at hcopy
    exact hcopy

/-! ### The loop of the driver -/

theorem primeWith_interleaved_nil (p offset : Nat) (rest : List Nat) (s : PlaybackRun w) (x : Transfer) :
    let r := primeWith (interleaved fun _ => []) p offset rest (s, x)
    let r' := Playback.primeTransfer p offset rest (s.pb, x)
    r.1.pb = r'.1 ∧ r.2 = r'.2 := by
  induction rest generalizing p offset s x with
  | nil => exact ⟨rfl, rfl⟩
  | cons bytes rest ih => exact ih ..

/-- With an idle render thread this is the fill loop of `submitIsoPump`. -/
theorem fillTransfers_primeOut (d : Driver w) (n : Nat) :
    let r := fillTransfers (fun _ _ => []) { pb := d.pb } d.transfers n
    let filled := (List.range n).foldl Driver.primeOut d
    r.1.pb = filled.pb ∧ r.2 = filled.transfers := by
  induction n with
  | zero => exact ⟨rfl, rfl⟩
  | succ n ih =>
    obtain ⟨hpb, htransfers⟩ := ih
    rw [List.range_succ, List.foldl_append]
    obtain ⟨r, hr⟩ : ∃ r, r = fillTransfers (fun _ _ => []) { pb := d.pb } d.transfers n := ⟨_, rfl⟩
    have hturn := primeWith_interleaved_nil 0 0 (r.2 n).lengths r.1 (r.2 n)
    rw [← hr] at hpb htransfers
    rw [hpb, htransfers] at hturn
    simp only [fillTransfers, ← hr, fillTransfer, htransfers, List.foldl_cons, List.foldl_nil, Driver.primeOut]
    exact ⟨hturn.1, congrArg _ hturn.2⟩

/-- Sixteen channels of 32 bits at 48 kHz, high speed. -/
def sixteenStream : StreamFormat := { sampleRateHz := 48000, bitsPerSample := 32, bytesPerSample := 4, channels := 16 }

/-- A ring of 1 MiB and a quantum of 1024 frames, accepted in one session; in the next session the bound of the prime is
nothing but the quantum. -/
def unprimedStart : Startup 64 :=
  run Startup.step (Startup.constructed defaultRing)
    [.configureUserspaceBuffers { ringCapacityBytes := 1048576 }, .start sixteenStream, .startIsoPump 448 true,
      .setUserspaceBufferConfig 1024 {} 3, .start sixteenStream, .startIsoPump 448 true]

def unprimedRun : PlaybackRun 64 := { pb := { unprimedStart.drv.pb with playbackStarted := true } }

/-- One frame, committed before packet `packet` of the first transfer. -/
def frameBefore (packet t p : Nat) : List PlaybackAct :=
  if t = 0 ∧ p = packet then [.prepare 1, .fillFirst 0 (List.replicate 64 1), .commit] else []

theorem producerActs_frameBefore (packet t p : Nat) : ProducerActs (frameBefore packet t p) := by
  intro bytes hmem
  unfold frameBefore at hmem
  split at hmem
  · simp at hmem
  · cases hmem

/-- The prime is zero and the ring empty when the loop starts. The first packet is drained to nothing, the second takes
the frame, and what is sent is the start of the buffer. -/
theorem initial_wire_torn :
    unprimedStart.rejected = false ∧ unprimedRun.pb.startupPrimeFrames ≤ unprimedRun.pb.bufferedFrames ∧
      ¬WireIntact (frameBefore 1) unprimedRun unprimedStart.drv.transfers unprimedStart.drv.outCount := by
  refine ⟨by decide, by decide, fun h => ?_⟩
  have hfirst := h 0 (by decide)
  revert hfirst
  decide

/-- A frame that is there before the first packet is sent as it was drained, whatever its bytes. -/
theorem initial_wire_intact_first :
    ∃ f : UInt8 → UInt8, f 1 = 7 ∧
      WireIntact (fun t p => (frameBefore 0 t p).map (·.mapBytes f)) (unprimedRun.mapBytes f) unprimedStart.drv.transfers
        unprimedStart.drv.outCount := by
  have hinv : unprimedRun.Inv := ⟨by decide, .inl rfl, rfl⟩
  refine ⟨fun _ => 7, rfl, (initial_wire_intact_iff (producerActs_frameBefore 0) hinv _ _).2 ?_ _⟩
  decide

end UacDriver
