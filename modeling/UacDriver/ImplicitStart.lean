import UacDriver.ImplicitOrder
import UacDriver.Pump

/-!
# The layout FIFO from the session start on

`startDuplex` resets both FIFO cursors. From there on every capture completion pushes, the priming loop of
`startIsoPump` and the refills take, and the FIFO holds the last pushed counts in every state of the session:
the state in which the implicit pump takes over is one that `MetaFifo.Holds` describes.
-/

namespace UacDriver

open Runs

namespace MetaFifo.Holds

variable {f f' : MetaFifo} {pushed : List Nat}

theorem pushAll (h : f.Holds pushed) (vs : List Nat) : (vs.foldl MetaFifo.push f).Holds (pushed ++ vs) := by
  induction vs generalizing f pushed with
  | nil => simpa using h
  | cons v vs ih => simpa using ih (h.push v)

theorem primePacket {maxFrames n frames : Nat} (h : f.Holds pushed) (hn : f.implicitRead + n ≤ f.implicitWrite)
    (he : f.primePacket maxFrames n = some (frames, f')) : f'.Holds pushed := by
  induction n generalizing f with
  | zero => cases he
  | succ n ih =>
    have htake : (f.take 1).Holds pushed := h.take (by omega)
    simp only [MetaFifo.primePacket] at he
    split at he
    · refine ih htake ?_ he
      show f.implicitRead + 1 + n ≤ f.implicitWrite
      omega
    · cases he
      exact htake

theorem primePackets {maxFrames n : Nat} {plan : List Nat} (h : f.Holds pushed)
    (he : f.primePackets maxFrames n = some (plan, f')) : f'.Holds pushed := by
  induction n generalizing f plan with
  | zero =>
    cases he
    exact h
  | succ n ih =>
    obtain ⟨⟨frames, f₁⟩, hfirst, he⟩ := Option.bind_eq_some_iff.1 he
    obtain ⟨⟨rest, f₂⟩, hrest, heq⟩ := Option.map_eq_some_iff.1 he
    cases heq
    have hle := h.read_le
    exact ih (h.primePacket (by omega) hfirst) hrest

end MetaFifo.Holds

namespace Driver

variable {w : Nat} {d d' : Driver w}

/-- The FIFO holds the last of some counts. -/
def HoldsLayout (d : Driver w) : Prop := ∃ pushed, d.fifo.Holds pushed

namespace HoldsLayout

theorem congr (h : d.HoldsLayout) (hf : d'.fifo = d.fifo) : d'.HoldsLayout := by
  obtain ⟨pushed, h⟩ := h
  exact ⟨pushed, hf ▸ h⟩

theorem takeAndRefill (h : d.HoldsLayout) {i : Nat} (hc : d.canPrepare i = true) :
    (d.takeAndRefill i).HoldsLayout := by
  obtain ⟨pushed, h⟩ := h
  exact ⟨pushed, h.take (metadata_of_canPrepare hc)⟩

theorem resubmitOut (h : d.HoldsLayout) (i : Nat) (implicit ok : Bool) :
    (d.resubmitOut i implicit ok).HoldsLayout := by
  refine h.congr ?_
  unfold Driver.resubmitOut
  cases ok <;> rfl

theorem onIso (h : d.HoldsLayout) (i : Nat) (ok : Xfer → Bool) : (d.onIso i ok).HoldsLayout := by
  have hcredit : ((d.completeOut i).creditOut i).HoldsLayout := h.congr rfl
  refine onIso_rule (P := HoldsLayout) (fun _ => h.congr rfl) (fun _ _ => h.congr rfl) ?_ ?_ ?_
  · intro _ _ _ stats
    refine hcredit.congr ?_
    unfold deferTransfer
    split <;> rfl
  · intro _ _ _ hc
    have hc' : ((d.completeOut i).creditOut i).canPrepare i = true := by rw [canPrepare_creditOut]; exact hc
    exact (hcredit.takeAndRefill hc').resubmitOut i true (ok (.out i))
  · intro _ _
    have hrefill : (((d.completeOut i).creditOut i).refillScheduled i).HoldsLayout := hcredit.congr rfl
    exact hrefill.resubmitOut i false (ok (.out i))

theorem onFeedback (h : d.HoldsLayout) (k : Nat) (x : Transfer) (ok : Xfer → Bool) :
    (d.onFeedback k x ok).HoldsLayout := by
  have hnote : (d.noteFeedback x).fifo = d.fifo := by
    unfold noteFeedback acceptFeedback
    split
    · split
      · dsimp only
        split <;> rfl
      · rfl
    · rfl
  exact onFeedback_rule (P := HoldsLayout) (h.congr rfl) (h.congr rfl) (fun _ _ => h.congr hnote)
    (fun _ _ => h.congr hnote)

theorem submitPendingImplicitTransfers (h : d.HoldsLayout) (ok : Xfer → Bool) :
    (d.submitPendingImplicitTransfers ok).HoldsLayout := by
  have hloop := submitPending_rule ok (P := fun d' _ => d'.HoldsLayout) (Q := fun d' _ => d'.HoldsLayout)
    (fun _ h => h) (fun _ _ _ _ h _ => h.congr rfl) (fun _ _ _ h hc _ => (h.takeAndRefill hc).congr rfl)
    (fun _ _ _ h hc _ => (h.takeAndRefill hc).congr rfl) d d.pending h
  exact hloop.congr rfl

theorem receiveCapture (h : d.HoldsLayout) (x : Transfer) : (d.receiveCapture x).HoldsLayout := by
  obtain ⟨pushed, h⟩ := h
  by_cases hi : d.implicitFormat = true
  · refine ⟨pushed ++ d.pushes x, ?_⟩
    simp only [Driver.receiveCapture, if_pos hi]
    exact h.pushAll _
  · refine ⟨pushed, ?_⟩
    simp only [Driver.receiveCapture, if_neg hi]
    exact h

theorem onCapture (h : d.HoldsLayout) (j : Nat) (x : Transfer) (ok : Xfer → Bool) :
    (d.onCapture j x ok).HoldsLayout := by
  have hrel := (h.receiveCapture x).submitPendingImplicitTransfers ok
  refine onCapture_rule (P := HoldsLayout) (fun _ => h.congr rfl) (fun _ => h.congr rfl) (fun _ => ?_) (fun _ _ => ?_)
    (fun _ _ => ?_)
  all_goals
    generalize (d.receiveCapture x).submitPendingImplicitTransfers ok = e at *
    exact hrel.congr rfl

theorem step (h : d.HoldsLayout) (a : DriverAct) : (d.step a).HoldsLayout := by
  cases a with
  | outDone i status results ok =>
    simp only [Driver.step]
    split
    · have hdel : (d.deliverOut i status results).HoldsLayout := h.congr rfl
      exact hdel.onIso i ok
    · exact h
  | feedbackDone k x ok =>
    simp only [Driver.step]
    split
    · have hrel : (d.release (.feedback k)).HoldsLayout := h.congr rfl
      exact hrel.onFeedback k x ok
    · exact h
  | captureDone j x ok =>
    simp only [Driver.step]
    split
    · have hrel : (d.release (.capture j)).HoldsLayout := h.congr rfl
      exact hrel.onCapture j x ok
    · exact h
  | _ => exact h.congr rfl

theorem run (h : d.HoldsLayout) (as : List DriverAct) : (run Driver.step d as).HoldsLayout :=
  run_invariant (I := HoldsLayout) (fun _ a h => h.step a) h as

/-! ### The session start -/

theorem resetCapture (d : Driver w) (format : StreamFormat) : (d.resetCapture format).HoldsLayout :=
  ⟨[], rfl, le_rfl, Nat.zero_le _, fun _ _ h => absurd h (Nat.not_lt_zero _)⟩

theorem submitFirst {ok : Xfer → Bool} {lengths : Xfer → List Nat} {x : Xfer} (h : d.HoldsLayout)
    (he : d.submitFirst ok lengths x = some d') : d'.HoldsLayout := by
  unfold Driver.submitFirst at he
  split at he
  · cases x <;> cases he <;> exact h.congr rfl
  · cases he

theorem startCapturePump (h : d.HoldsLayout) {mps : Int} {ok : Xfer → Bool}
    (he : d.startCapturePump mps ok = some d') : d'.HoldsLayout := by
  unfold Driver.startCapturePump at he
  obtain ⟨-, he⟩ := Option.ite_none_left_eq_some.1 he
  exact foldlM_rule (P := fun _ d' => d'.HoldsLayout) (fun _ _ _ _ h hx => h.submitFirst hx) (h.congr rfl) he

theorem startIsoPump (h : d.HoldsLayout) {maxPacket : Int} {alloc : Bool}
    (he : d.startIsoPump maxPacket alloc = some d') : d'.HoldsLayout := by
  obtain ⟨pushed, h⟩ := h
  unfold Driver.startIsoPump at he
  obtain ⟨-, he⟩ := Option.ite_none_left_eq_some.1 he
  obtain ⟨⟨plan, fifo⟩, hplan, rfl⟩ := Option.map_eq_some_iff.1 he
  refine ⟨pushed, ?_⟩
  unfold initialPlan at hplan
  split at hplan
  · exact h.primePackets hplan
  · cases hplan
    exact h

theorem primeAll (h : d.HoldsLayout) (is : List Nat) : (is.foldl primeOut d).HoldsLayout := by
  have hstep (d : Driver w) (i : Nat) (h : d.HoldsLayout) : (d.primeOut i).HoldsLayout := h.congr rfl
  exact run_invariant hstep h is

theorem startPlayback (h : d.HoldsLayout) {ok : Xfer → Bool} (he : d.startPlayback ok = some d') :
    d'.HoldsLayout := by
  unfold Driver.startPlayback submitIsoPump at he
  obtain ⟨-, he⟩ := Option.ite_none_left_eq_some.1 he
  obtain ⟨-, he⟩ := Option.ite_none_left_eq_some.1 he
  obtain ⟨-, he⟩ := Option.ite_none_left_eq_some.1 he
  obtain ⟨d₁, hsubmit, rfl⟩ := Option.map_eq_some_iff.1 he
  have hstarted : ({ d with pb := { d.pb with playbackStarted := true } } : Driver w).HoldsLayout := h.congr rfl
  exact foldlM_rule (P := fun _ d' => d'.HoldsLayout) (fun _ _ _ _ h hx => h.submitFirst hx) (hstarted.primeAll _)
    hsubmit

end HoldsLayout

/-- The FIFO of a duplex session, in every state from the start of its capture pump on. -/
theorem session_holdsLayout {d₁ d₂ d₃ : Driver w} {format : StreamFormat} {mps maxPacket : Int} {alloc : Bool}
    {captureOk playbackOk : Xfer → Bool} (h₁ : (d.resetCapture format).startCapturePump mps captureOk = some d₁)
    (warm pre as : List DriverAct) (h₂ : (run step d₁ warm).startIsoPump maxPacket alloc = some d₂)
    (h₃ : (run step d₂ pre).startPlayback playbackOk = some d₃) : (run step d₃ as).HoldsLayout := by
  have hi₁ : d₁.HoldsLayout := (HoldsLayout.resetCapture d format).startCapturePump h₁
  have hi₂ : d₂.HoldsLayout := (hi₁.run warm).startIsoPump h₂
  have hi₃ : d₃.HoldsLayout := (hi₂.run pre).startPlayback h₃
  exact hi₃.run as

end Driver

end UacDriver
