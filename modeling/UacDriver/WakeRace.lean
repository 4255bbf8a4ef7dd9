import UacDriver.Lib.Runs
import UacDriver.Driver

/-!
# Producers and a waiter on one wake channel

A producer publishes a state change and then runs `signalIfWaiting`: it reads the waiter count and writes the
eventfd only when the count is not zero (`signal`, the terminal form, writes always). The waiter registers,
reads the tests of its loop one after the other, polls, drains and reads them again. Every access to the shared
state is a step of its own here, so the producers and the waiter interleave between any two of them.

A test that the waiter has read as false in this round and that is true now was made true by a publication
after the read. Its producer finds the waiter registered, so it has still to write the eventfd or has written
it, and only the waiter's own drain, which forgets the round, takes that write away.
-/

namespace UacDriver

open Runs

/-- The counter behind `fd_`. -/
structure Eventfd where
  valid : Bool := true
  count : Nat := 0

namespace Eventfd

/-- A write that would pass this value fails with `EAGAIN` and leaves the counter alone. -/
def maxCount : Nat := 2 ^ 64 - 2

def write (e : Eventfd) : Eventfd :=
  { e with count := if e.valid ∧ e.count < maxCount then e.count + 1 else e.count }

/-- `drain`: one non-blocking read, which resets the counter. -/
def drain (e : Eventfd) : Eventfd := { e with count := 0 }

def readable (e : Eventfd) : Bool := e.valid && decide (0 < e.count)

theorem write_count_pos {e : Eventfd} (h : e.valid = true) : 0 < e.write.count := by
  show 0 < if e.valid = true ∧ e.count < maxCount then e.count + 1 else e.count
  split
  · omega
  · rename_i hfull
    have : ¬e.count < maxCount := fun hlt => hfull ⟨h, hlt⟩
    have : 0 < maxCount := by decide
    omega

theorem write_of_invalid {e : Eventfd} (h : ¬e.valid = true) : e.write = e := by
  have hfull : ¬(e.valid = true ∧ e.count < maxCount) := fun hw => h hw.1
  rw [write, if_neg hfull]

end Eventfd

/-- One wait: `exits` are the tests that end its loop, in the order in which it reads them, `drains` tells
whether the body drains the channel after `poll`, and `result` is what the call returns. -/
structure Wait (σ : Type) where
  exits : List (σ → Bool)
  drains : Bool
  result : σ → Bool

/-- The wait's condition: one of the tests that end the loop. -/
def Wait.met {σ : Type} (wait : Wait σ) (x : σ) : Bool := wait.exits.any fun c => c x

/-- Where the waiting thread stands: outside a wait, with `n` tests of this round read as false, in `poll`,
before `drain`, before the last test, and before the `Registration` ends. -/
inductive WaiterPc (σ : Type) where
  | out
  | check (wait : Wait σ) (n : Nat)
  | poll (wait : Wait σ)
  | drain (wait : Wait σ)
  | last (wait : Wait σ)
  | leave (result : Bool)

/-- Where a producer stands: outside, after its publication and before it reads the waiter count, and before
the eventfd write. -/
inductive ProducerPc where
  | idle
  | gate
  | signal
  deriving DecidableEq

structure WakeRace (σ : Type) where
  published : σ
  fd : Eventfd := {}
  waiters : Nat := 0
  waiter : WaiterPc σ := .out
  producers : Nat → ProducerPc := fun _ => .idle
  /-- History of the current call: the eventfd writes, and how often `poll` returned readable. -/
  writes : Nat := 0
  polled : Nat := 0

inductive WakeAct (σ : Type) where
  /-- Producer `p` publishes; a terminal transition goes on with `signal`, any other with `signalIfWaiting`. -/
  | publish (p : Nat) (change : σ → σ) (terminal : Bool)
  /-- The next step of producer `p`. -/
  | produce (p : Nat)
  /-- The waiting thread changes the state between two waits. -/
  | consume (change : σ → σ)
  | call (wait : Wait σ)
  /-- The next step of the waiter; in `poll` it needs a readable eventfd. -/
  | wait
  /-- `poll` returns false: the deadline has passed, the call fails or there is no eventfd. -/
  | giveUp

def WakeAct.isCall {σ : Type} : WakeAct σ → Bool
  | .call _ => true
  | _ => false

namespace WakeRace

variable {σ : Type} (s : WakeRace σ)

def produceStep (p : Nat) : WakeRace σ :=
  match s.producers p with
  | .idle => s
  | .gate =>
    { s with producers := Function.update s.producers p (if s.fd.valid ∧ 0 < s.waiters then .signal else .idle) }
  | .signal =>
    { s with
      fd := s.fd.write, writes := if s.fd.valid then s.writes + 1 else s.writes
      producers := Function.update s.producers p .idle }

def waitStep : WakeRace σ :=
  match s.waiter with
  | .out => s
  | .check wait n =>
    match wait.exits[n]? with
    | none => { s with waiter := .poll wait }
    | some c => { s with waiter := if c s.published then .last wait else .check wait (n + 1) }
  | .poll wait =>
    if s.fd.readable then
      { s with polled := s.polled + 1, waiter := if wait.drains then .drain wait else .check wait 0 }
    else s
  | .drain wait => { s with fd := s.fd.drain, waiter := .check wait 0 }
  | .last wait => { s with waiter := .leave (wait.result s.published) }
  | .leave _ => { s with waiters := s.waiters - 1, waiter := .out }

def step : WakeAct σ → WakeRace σ
  | .publish p change terminal =>
    if s.producers p = .idle then
      { s with
        published := change s.published
        producers := Function.update s.producers p (if terminal then .signal else .gate) }
    else s
  | .produce p => s.produceStep p
  | .consume change =>
    match s.waiter with
    | .out => { s with published := change s.published }
    | _ => s
  | .call wait =>
    match s.waiter with
    | .out => { s with waiters := s.waiters + 1, waiter := .check wait 0, writes := 0, polled := 0 }
    | _ => s
  | .wait => s.waitStep
  | .giveUp =>
    match s.waiter with
    | .poll wait => { s with waiter := .last wait }
    | _ => s

/-- Nobody stands in the channel's code; the eventfd may hold wakes of earlier signals. -/
def start (x : σ) (fd : Eventfd) : WakeRace σ := { published := x, fd }

/-- The waiter sleeps in `poll` although its condition holds, and nobody is going to wake it. -/
structure Stranded : Prop where
  blocked : ∃ wait, s.waiter = .poll wait ∧ wait.met s.published = true
  valid : s.fd.valid = true
  unreadable : s.fd.count = 0
  producers : ∀ p, s.producers p = .idle

/-! ### The channel of the driver model -/

/-- What the driver model keeps of the channel. -/
def channel : WakeChannel := ⟨s.fd.valid, s.waiters, s.writes⟩

variable {s}

/-- A producer that runs alone after its publication is `WakeChannel.signalIfWaiting`. -/
theorem produce_signalIfWaiting {p : Nat} (hp : s.producers p = .gate) :
    ((s.produceStep p).produceStep p).channel = s.channel.signalIfWaiting ∧
      ((s.produceStep p).produceStep p).producers p = .idle := by
  by_cases h : s.fd.valid = true ∧ 0 < s.waiters
  · obtain ⟨hv, hw⟩ := h
    constructor <;> simp [produceStep, hp, hv, hw, channel, WakeChannel.signalIfWaiting, WakeChannel.signal, Eventfd.write]
  · have hgate : (s.produceStep p).producers p = .idle := by simp [produceStep, hp, h]
    have hstay : (s.produceStep p).produceStep p = s.produceStep p := by
      rw [produceStep]
      simp only [hgate]
    rw [hstay]
    refine ⟨?_, hgate⟩
    have hquiet : s.channel.signalIfWaiting = s.channel := if_neg h
    rw [hquiet]
    simp only [produceStep, hp, channel]

/-! ### The invariant -/

end WakeRace

namespace WaiterPc

variable {σ : Type}

def registered : WaiterPc σ → Bool
  | .out => false
  | _ => true

/-- The tests that the waiter has read as false and not forgotten. -/
def seen : WaiterPc σ → List (σ → Bool)
  | .check wait n => wait.exits.take n
  | .poll wait => wait.exits
  | _ => []

end WaiterPc

namespace WakeRace

variable {σ : Type} {s : WakeRace σ}

/-- The waiter has a wake in the eventfd or on its way there. -/
def Woken (s : WakeRace σ) : Prop := 0 < s.fd.count ∨ ∃ p, s.producers p ≠ .idle

structure Inv (s : WakeRace σ) : Prop where
  waiters : s.waiters = if s.waiter.registered then 1 else 0
  heard : s.fd.valid = true → ∀ c ∈ s.waiter.seen, c s.published = true → s.Woken

theorem Inv.start (x : σ) (fd : Eventfd) : (start x fd).Inv := ⟨rfl, fun _ _ hc => by cases hc⟩

namespace Inv

theorem publish (h : s.Inv) (p : Nat) (change : σ → σ) (terminal : Bool) : (s.step (.publish p change terminal)).Inv := by
  simp only [step]
  split
  · refine ⟨h.waiters, fun _ c _ _ => .inr ⟨p, ?_⟩⟩
    cases terminal <;> simp
  · exact h

/-- A producer leaves the channel's code with the eventfd written, or it has found no waiter. -/
theorem produce (h : s.Inv) (p : Nat) : (s.step (.produce p)).Inv := by
  simp only [step, produceStep]
  split
  · exact h
  · refine ⟨h.waiters, fun hv c hc _ => ?_⟩
    have hreg : s.waiter.registered = true := by
      cases hpc : s.waiter with
      | out =>
        simp only [hpc] at hc
        cases hc
      | _ => rfl
    have hw : 0 < s.waiters := by
      rw [h.waiters, hreg]
      exact Nat.one_pos
    refine .inr ⟨p, ?_⟩
    have hgate : s.fd.valid = true ∧ 0 < s.waiters := ⟨hv, hw⟩
    simp [hgate]
  · exact ⟨h.waiters, fun hv _ _ _ => .inl (Eventfd.write_count_pos hv)⟩

/-- The waiter forgets what it has read. -/
theorem forget (h : s.Inv) (waiter : WaiterPc σ) (hreg : waiter.registered = s.waiter.registered)
    (hseen : waiter.seen = []) {s' : WakeRace σ} (hwaiters : s'.waiters = s.waiters) (hwaiter : s'.waiter = waiter) :
    s'.Inv := by
  refine ⟨?_, fun _ c hc => ?_⟩
  · rw [hwaiters, hwaiter, hreg]
    exact h.waiters
  · rw [hwaiter, hseen] at hc
    cases hc

theorem wait (h : s.Inv) : (s.step .wait).Inv := by
  simp only [step, waitStep]
  split
  · exact h
  · rename_i wait n hpc
    have hreg : s.waiter.registered = true := by rw [hpc]; rfl
    split
    · -- every test of the round has been read
      rename_i hn
      refine ⟨h.waiters.trans (by rw [hreg]; rfl), fun hv c hc => h.heard hv c ?_⟩
      have hall : wait.exits.take n = wait.exits := List.take_of_length_le (List.getElem?_eq_none_iff.1 hn)
      rw [hpc]
      simp only [WaiterPc.seen, hall] at hc ⊢
      exact hc
    · rename_i c₀ hn
      by_cases hc₀ : c₀ s.published = true
      · simp only [hc₀, if_true]
        exact h.forget (.last wait) (by rw [hreg]; rfl) rfl rfl rfl
      · -- one more test is false at its read
        simp only [hc₀, Bool.false_eq_true, if_false]
        refine ⟨h.waiters.trans (by rw [hreg]; rfl), fun hv c hc ht => ?_⟩
        have hmem : c ∈ wait.exits.take (n + 1) := hc
        rw [List.take_add_one, hn, Option.toList_some, List.mem_append, List.mem_singleton] at hmem
        rcases hmem with hold | rfl
        · exact h.heard hv c (by rw [hpc]; exact hold) ht
        · exact absurd ht hc₀
  · rename_i wait hpc
    have hreg : s.waiter.registered = true := by rw [hpc]; rfl
    split
    · cases hd : wait.drains with
      | true => exact h.forget (.drain wait) (by rw [hreg]; rfl) rfl rfl rfl
      | false => exact h.forget (.check wait 0) (by rw [hreg]; rfl) rfl rfl rfl
    · exact h
  · rename_i wait hpc
    exact h.forget (.check wait 0) (by rw [hpc]; rfl) rfl rfl rfl
  · rename_i wait hpc
    exact h.forget (.leave (wait.result s.published)) (by rw [hpc]; rfl) rfl rfl rfl
  · rename_i r hpc
    refine ⟨?_, fun _ c hc => ?_⟩
    · show s.waiters - 1 = 0
      rw [h.waiters, hpc]
      rfl
    · cases hc

theorem step (h : s.Inv) (a : WakeAct σ) : (s.step a).Inv := by
  cases a with
  | publish p change terminal => exact h.publish p change terminal
  | produce p => exact h.produce p
  | consume change =>
    simp only [WakeRace.step]
    split
    · rename_i hpc
      exact h.forget .out (by rw [hpc]) rfl rfl hpc
    · exact h
  | call wait =>
    simp only [WakeRace.step]
    split
    · rename_i hpc
      have hw : s.waiters = 0 := by rw [h.waiters, hpc]; rfl
      refine ⟨?_, fun _ c hc => ?_⟩
      · show s.waiters + 1 = 1
        rw [hw]
      · cases hc
    · exact h
  | wait => exact h.wait
  | giveUp =>
    simp only [WakeRace.step]
    split
    · rename_i wait hpc
      exact h.forget (.last wait) (by rw [hpc]; rfl) rfl rfl rfl
    · exact h

end Inv

/-- The channel loses no wakeup: from a state with nobody in its code, however the producers and the waiter
interleave, the waiter is never left in `poll` with its condition true and no wake on the way. -/
theorem wake_channel_loses_no_wakeup (x : σ) (fd : Eventfd) (acts : List (WakeAct σ)) :
    ¬(run WakeRace.step (start x fd) acts).Stranded := by
  have hinv : (run WakeRace.step (start x fd) acts).Inv := run_invariant (fun _ a h => h.step a) (Inv.start x fd) acts
  intro h
  obtain ⟨wait, hpoll, hmet⟩ := h.blocked
  obtain ⟨c, hc, ht⟩ := List.any_eq_true.1 hmet
  rcases hinv.heard h.valid c (by rw [hpoll]; exact hc) ht with hcount | ⟨p, hp⟩
  · exact absurd h.unreadable hcount.ne'
  · exact hp (h.producers p)

end WakeRace

end UacDriver
