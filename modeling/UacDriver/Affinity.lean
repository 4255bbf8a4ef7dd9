import Mathlib.Data.List.Basic
import UacDriver.CpuMasks
import UacDriver.Lib.Runs

/-!
# Threads and the masks they inherit

A thread begins with the mask of the thread that spawns it, and the two `applyCurrentThread…Affinity` calls derive their
masks from the one the thread already has. So what a call does depends on the calls before it, on this thread and on all
it descends from. Here is a process with its threads and the three flags, the system calls answered by the kernel, and
what holds of every thread of every run: the first call that is granted on a line of descent decides on which side of
the split all of the line stays, and the UI call narrows a line again at each generation, which the audio call does not.
-/

namespace UacDriver

open Ranks Runs

section

variable {n : Nat}

/-! ### The two calls -/

/-- The mask that `applyCurrentThreadUiAffinity` asks the kernel to set; `none` where it returns before that. `read` is
whether `sched_getaffinity` succeeds, `allowed` what it reads. -/
def applyCurrentThreadUiAffinity (uiAffinityEnabledFlag read : Bool) (allowed : CpuSet n) : Option (CpuSet n) :=
  if !uiAffinityEnabledFlag then none
  else if !read then none
  else
    let ui := deriveUiCpuMask allowed
    if cpuCount ui = 0 then none else some ui

def applyCurrentThreadAudioAffinity (audioAffinityEnabledFlag read : Bool) (placement : ServiceCpuPlacement)
    (allowed : CpuSet n) (role : AudioCpuRole) : Option (CpuSet n) :=
  if !audioAffinityEnabledFlag then none
  else if !read then none
  else
    let audio := deriveAudioRoleCpuMask placement allowed role
    if cpuCount audio = 0 then none
    -- a role that asks for everything it already has is not pinned
    else if audio = allowed then none
    else some audio

inductive AffinityCall where
  | ui
  | audio (placement : ServiceCpuPlacement) (role : AudioCpuRole)
  deriving DecidableEq

def AffinityCall.isAudio : AffinityCall → Bool
  | .ui => false
  | .audio _ _ => true

def AffinityCall.narrow (allowed : CpuSet n) : AffinityCall → CpuSet n
  | .ui => deriveUiCpuMask allowed
  | .audio placement role => deriveAudioRoleCpuMask placement allowed role

structure AffinityThread (n : Nat) where
  mask : CpuSet n
  /-- The calls that were granted, on this thread and on those it descends from before each spawned the next. -/
  granted : List AffinityCall := []

/-- A call on a thread: the mask it asks for, if it asks, and whether `sched_setaffinity` succeeds. -/
def AffinityThread.ask (th : AffinityThread n) (call : AffinityCall) (asked : Option (CpuSet n)) (succeeds : Bool) :
    AffinityThread n :=
  match asked with
  | none => th
  | some mask => if succeeds then { mask, granted := th.granted ++ [call] } else th

/-! ### The process -/

structure Process (n : Nat) where
  audioAffinityEnabledFlag : Bool := true
  uiAffinityEnabledFlag : Bool := true
  serviceCpuPlacementFlag : ServiceCpuPlacement := .wholePool
  threads : List (AffinityThread n)

inductive ProcessAct where
  | setAudioAffinityEnabled (enabled : Bool)
  | setUiAffinityEnabled (enabled : Bool)
  | setServiceCpuPlacement (placement : ServiceCpuPlacement)
  /-- `std::thread` on a thread, such as that of `ensureEventThread`. -/
  | spawn (thread : Nat)
  | applyCurrentThreadUiAffinity (thread : Nat) (read succeeds : Bool)
  /-- What `setCurrentThreadUrgentAudio` does about the mask, as `runEventLoop` calls it with the role of service. -/
  | setCurrentThreadUrgentAudio (thread : Nat) (role : AudioCpuRole) (read succeeds : Bool)

def Process.onThread (s : Process n) (thread : Nat) (f : AffinityThread n → AffinityThread n) : Process n :=
  { s with threads := s.threads.modify thread f }

def Process.step (s : Process n) : ProcessAct → Process n
  | .setAudioAffinityEnabled enabled => { s with audioAffinityEnabledFlag := enabled }
  | .setUiAffinityEnabled enabled => { s with uiAffinityEnabledFlag := enabled }
  | .setServiceCpuPlacement placement => { s with serviceCpuPlacementFlag := placement }
  | .spawn thread =>
    match s.threads[thread]? with
    | none => s
    | some th => { s with threads := s.threads ++ [th] }
  | .applyCurrentThreadUiAffinity thread read succeeds =>
    s.onThread thread fun th =>
      th.ask .ui (UacDriver.applyCurrentThreadUiAffinity s.uiAffinityEnabledFlag read th.mask) succeeds
  | .setCurrentThreadUrgentAudio thread role read succeeds =>
    s.onThread thread fun th =>
      th.ask (.audio s.serviceCpuPlacementFlag role)
        (applyCurrentThreadAudioAffinity s.audioAffinityEnabledFlag read s.serviceCpuPlacementFlag th.mask role) succeeds

/-- The first thread of a process, with the mask the platform gives it. -/
def Process.start (allowed : CpuSet n) : Process n := { threads := [{ mask := allowed }] }

/-! ### What one call does to a thread -/

/-- `th'` is `th` after a call that was granted. -/
structure Granted (th : AffinityThread n) (call : AffinityCall) (th' : AffinityThread n) : Prop where
  mask : th'.mask = call.narrow th.mask
  granted : th'.granted = th.granted ++ [call]
  runnable : (members th'.mask).Nonempty
  changes : call.isAudio = true → th'.mask ≠ th.mask

variable {allowed mask mask' : CpuSet n} {th th' : AffinityThread n} {call : AffinityCall} {succeeds : Bool}

theorem members_nonempty (h : ¬cpuCount mask = 0) : (members mask).Nonempty := by
  rw [cpuCount_eq] at h
  exact Finset.card_ne_zero.1 h

theorem members_inj (h : members mask = members mask') : mask = mask' := by
  refine BitVec.eq_of_getLsbD_eq fun cpu _ => ?_
  have hcpu := Finset.ext_iff.1 h cpu
  rw [mem_members, mem_members] at hcpu
  exact Bool.eq_iff_iff.2 hcpu

theorem applyUi_some {uiAffinityEnabledFlag read : Bool}
    (h : applyCurrentThreadUiAffinity uiAffinityEnabledFlag read allowed = some mask) :
    mask = deriveUiCpuMask allowed ∧ (members mask).Nonempty := by
  unfold applyCurrentThreadUiAffinity at h
  dsimp only at h
  split at h
  · cases h
  split at h
  · cases h
  split at h
  · cases h
  rename_i hcount
  cases h
  exact ⟨rfl, members_nonempty hcount⟩

theorem applyAudio_some {audioAffinityEnabledFlag read : Bool} {placement : ServiceCpuPlacement} {role : AudioCpuRole}
    (h : applyCurrentThreadAudioAffinity audioAffinityEnabledFlag read placement allowed role = some mask) :
    mask = deriveAudioRoleCpuMask placement allowed role ∧ (members mask).Nonempty ∧ mask ≠ allowed := by
  unfold applyCurrentThreadAudioAffinity at h
  dsimp only at h
  split at h
  · cases h
  split at h
  · cases h
  split at h
  · cases h
  rename_i hcount
  split at h
  · cases h
  rename_i hother
  cases h
  exact ⟨rfl, members_nonempty hcount, hother⟩

theorem AffinityThread.ask_cases {asked : Option (CpuSet n)}
    (h : ∀ mask, asked = some mask →
      mask = call.narrow th.mask ∧ (members mask).Nonempty ∧ (call.isAudio = true → mask ≠ th.mask)) :
    th.ask call asked succeeds = th ∨ Granted th call (th.ask call asked succeeds) := by
  unfold AffinityThread.ask
  split
  · exact .inl rfl
  · rename_i mask
    split
    · obtain ⟨hmask, hrun, hchanges⟩ := h mask rfl
      exact .inr ⟨hmask, rfl, hrun, hchanges⟩
    · exact .inl rfl

theorem mem_modify {f : AffinityThread n → AffinityThread n} {threads : List (AffinityThread n)} {thread : Nat}
    (h : th ∈ threads.modify thread f) : th ∈ threads ∨ ∃ th₀ ∈ threads, th = f th₀ := by
  obtain ⟨i, hi⟩ := List.mem_iff_getElem?.1 h
  rw [List.getElem?_modify] at hi
  obtain ⟨th₀, hth₀, rfl⟩ := Option.map_eq_some_iff.1 hi
  have hmem := List.mem_of_getElem? hth₀
  split
  · exact .inr ⟨th₀, hmem, rfl⟩
  · exact .inl hmem

/-- A step leaves a thread, spawns one like it, or grants a call on it. -/
theorem Process.step_thread {s : Process n} {a : ProcessAct} (h : th ∈ (s.step a).threads) :
    th ∈ s.threads ∨ ∃ th₀ ∈ s.threads, ∃ call, Granted th₀ call th := by
  have hask {thread : Nat} {f : AffinityThread n → AffinityThread n} (call : AffinityCall)
      (hmem : th ∈ s.threads.modify thread f) (hf : ∀ th₀, f th₀ = th₀ ∨ Granted th₀ call (f th₀)) :
      th ∈ s.threads ∨ ∃ th₀ ∈ s.threads, ∃ call, Granted th₀ call th := by
    rcases mem_modify hmem with hmem | ⟨th₀, hth₀, rfl⟩
    · exact .inl hmem
    · rcases hf th₀ with hsame | hgranted
      · exact .inl (hsame.symm ▸ hth₀)
      · exact .inr ⟨th₀, hth₀, call, hgranted⟩
  cases a with
  | setAudioAffinityEnabled enabled => exact .inl h
  | setUiAffinityEnabled enabled => exact .inl h
  | setServiceCpuPlacement placement => exact .inl h
  | spawn thread =>
    rw [Process.step] at h
    split at h
    · exact .inl h
    · rename_i th₀ hth₀
      rcases List.mem_append.1 h with hmem | hnew
      · exact .inl hmem
      · exact .inl (List.mem_singleton.1 hnew ▸ List.mem_of_getElem? hth₀)
  | applyCurrentThreadUiAffinity thread read succeeds =>
    refine hask .ui h fun th₀ => AffinityThread.ask_cases fun mask hmask => ?_
    obtain ⟨hui, hrun⟩ := applyUi_some hmask
    exact ⟨hui, hrun, fun haudio => (by cases haudio)⟩
  | setCurrentThreadUrgentAudio thread role read succeeds =>
    refine hask (.audio s.serviceCpuPlacementFlag role) h fun th₀ => AffinityThread.ask_cases fun mask hmask => ?_
    obtain ⟨haudio, hrun, hother⟩ := applyAudio_some hmask
    exact ⟨haudio, hrun, fun _ => hother⟩

/-- What holds of the first thread and is kept by every granted call holds of every thread of every run. -/
theorem Process.thread_rule {I : AffinityThread n → Prop} (hstart : I { mask := allowed })
    (hgranted : ∀ th call th', Granted th call th' → I th → I th') (as : List ProcessAct) :
    ∀ th ∈ (run Process.step (Process.start allowed) as).threads, I th := by
  refine run_invariant (I := fun s : Process n => ∀ th ∈ s.threads, I th) ?_ ?_ as
  · intro s a hall th hmem
    rcases Process.step_thread hmem with hmem | ⟨th₀, hth₀, call, hcall⟩
    · exact hall th hmem
    · exact hgranted th₀ call th hcall (hall th₀ hth₀)
  · intro th hmem
    rw [List.mem_singleton.1 hmem]
    exact hstart

/-! ### Which side of the split -/

theorem members_narrow (call : AffinityCall) (allowed : CpuSet n) : members (call.narrow allowed) ⊆ members allowed := by
  cases call with
  | ui => exact (members_deriveUiCpuMask allowed).1
  | audio placement role =>
    have hpool : members (deriveAudioCpuMask allowed) ⊆ members allowed := by
      rw [members_deriveAudioCpuMask]
      exact top_subset
    exact (members_deriveAudioRoleCpuMask placement allowed role).1.trans hpool

/-- What the first granted call of a line leaves of the mask. -/
def AffinityThread.Settled (allowed : CpuSet n) (th : AffinityThread n) : Prop :=
  match th.granted with
  | [] => th.mask = allowed
  | first :: _ => (members th.mask).Nonempty ∧ members th.mask ⊆ members (first.narrow allowed)

theorem Granted.settled (h : Granted th call th') (hsettled : th.Settled allowed) : th'.Settled allowed := by
  have hless : members th'.mask ⊆ members th.mask := h.mask ▸ members_narrow call th.mask
  unfold AffinityThread.Settled at hsettled ⊢
  rw [h.granted]
  cases hline : th.granted with
  | nil =>
    rw [hline] at hsettled
    refine ⟨h.runnable, ?_⟩
    rw [h.mask, hsettled]
  | cons first rest =>
    rw [hline] at hsettled
    exact ⟨h.runnable, hless.trans hsettled.2⟩

/-- In every run of a process, of threads that spawn threads, make the two calls in any order and set the flags in
between: a thread on whose line of descent nothing was granted has the mask of the process. Where the first call granted
was one for audio, the thread stays within the part of the audio pool that call took, whatever is called later on it or
on the threads it comes from; where it was one for the UI, the thread stays off the pool, where there are three CPUs or
more, also when it is an audio thread that calls for its own role. No thread is left without a CPU. -/
theorem affinity_first_decides (allowed : CpuSet n) (as : List ProcessAct) :
    ∀ th ∈ (run Process.step (Process.start allowed) as).threads,
      match th.granted with
      | [] => th.mask = allowed
      | .audio placement role :: _ =>
        (members th.mask).Nonempty ∧
          members th.mask ⊆ members (deriveAudioRoleCpuMask placement allowed role) ∧
          members th.mask ⊆ members (deriveAudioCpuMask allowed)
      | .ui :: _ =>
        (members th.mask).Nonempty ∧
          members th.mask ⊆ members (deriveUiCpuMask allowed) ∧
          (3 ≤ (members allowed).card → Disjoint (members th.mask) (members (deriveAudioCpuMask allowed))) := by
  intro th hmem
  have hsettled : th.Settled allowed :=
    Process.thread_rule (I := AffinityThread.Settled allowed) rfl (fun _ _ _ h => h.settled) as th hmem
  unfold AffinityThread.Settled at hsettled
  split
  · rename_i hline
    rw [hline] at hsettled
    exact hsettled
  · rename_i placement role rest hline
    rw [hline] at hsettled
    obtain ⟨hrun, hsub⟩ := hsettled
    exact ⟨hrun, hsub, hsub.trans (members_deriveAudioRoleCpuMask placement allowed role).1⟩
  · rename_i rest hline
    rw [hline] at hsettled
    obtain ⟨hrun, hsub⟩ := hsettled
    refine ⟨hrun, hsub, fun hthree => ?_⟩
    have hui := (members_deriveUiCpuMask allowed).2.2 hthree
    have hsub : members th.mask ⊆ members (deriveUiCpuMask allowed) := hsub
    rw [hui] at hsub
    exact Finset.disjoint_of_subset_left hsub Finset.sdiff_disjoint

/-- An audio thread that a UI thread spawns chooses among the CPUs that the UI thread was left with. -/
theorem affinity_first_decides_service :
    let spawned : AffinityThread 4 := { mask := 0b0001#4, granted := [.ui, .audio .oneCoreOfPool .service] }
    spawned ∈ (run Process.step (Process.start 0b1111#4) [.applyCurrentThreadUiAffinity 0 true true, .spawn 0,
      .setServiceCpuPlacement .oneCoreOfPool, .setCurrentThreadUrgentAudio 1 .service true true]).threads ∧
    Disjoint (members spawned.mask) (members (deriveAudioCpuMask 0b1111#4)) := by
  intro spawned
  have hmem : spawned ∈ (run Process.step (Process.start 0b1111#4) [.applyCurrentThreadUiAffinity 0 true true, .spawn 0,
      .setServiceCpuPlacement .oneCoreOfPool, .setCurrentThreadUrgentAudio 1 .service true true]).threads :=
    List.mem_of_getElem? (i := 1) rfl
  obtain ⟨-, -, hoff⟩ := affinity_first_decides _ _ spawned hmem
  exact ⟨hmem, hoff (by decide)⟩

/-! ### How far a line is narrowed -/

theorem lowestCpu_bottom {cpu : Nat} (h : lowestCpu mask = some cpu) : bottom 1 (members mask) = {cpu} := by
  refine bottom_one (lowestCpu_some h) fun other hother hlt => ?_
  have hfirst := (List.find?_range_eq_some.1 h).2.2 other hlt
  rw [mem_members.1 hother] at hfirst
  cases hfirst

/-- The UI mask is the lowest CPUs: all but two, and one at least. -/
theorem members_deriveUiCpuMask_eq (allowed : CpuSet n) :
    members (deriveUiCpuMask allowed) = bottom (max 1 ((members allowed).card - 2)) (members allowed) := by
  rcases Nat.lt_or_ge 2 (members allowed).card with hmore | hfew
  · have hmax : max 1 ((members allowed).card - 2) = (members allowed).card - 2 := by omega
    rw [(members_deriveUiCpuMask allowed).2.2 hmore, members_deriveAudioCpuMask, rest_of_top, hmax]
  · have hmax : max 1 ((members allowed).card - 2) = 1 := by omega
    rw [hmax, deriveUiCpuMask, cpuCount_eq]
    split
    · rename_i hnone
      exact (bottom_of_card_le (hnone.trans_le (Nat.zero_le 1))).symm
    rename_i hsome
    cases hlowest : lowestCpu allowed with
    | none =>
      rw [lowestCpu_none hlowest] at hsome
      exact absurd Finset.card_empty hsome
    | some cpu => exact (lowestCpu_single hlowest).trans (lowestCpu_bottom hlowest).symm

/-- The audio calls of a line take a CPU off at each, from two on. -/
structure AffinityThread.Eroded (allowed : CpuSet n) (th : AffinityThread n) : Prop where
  ui : th.granted.countP AffinityCall.isAudio = 0 →
    members th.mask = bottom (max 1 ((members allowed).card - 2 * th.granted.length)) (members allowed)
  audio : 1 ≤ th.granted.countP AffinityCall.isAudio →
    1 ≤ (members th.mask).card ∧ th.granted.countP AffinityCall.isAudio + (members th.mask).card ≤ 3

theorem Granted.audio_card (h : Granted th call th') (haudio : call.isAudio = true) :
    (members th'.mask).card ≤ 2 ∧ (members th'.mask).card < (members th.mask).card := by
  have hless : members th'.mask ⊂ members th.mask := by
    refine Finset.ssubset_iff_subset_ne.2 ⟨h.mask ▸ members_narrow call th.mask, fun hsame => ?_⟩
    exact h.changes haudio (members_inj hsame)
  refine ⟨?_, Finset.card_lt_card hless⟩
  cases call with
  | ui => cases haudio
  | audio placement role =>
    have hpool := (members_deriveAudioRoleCpuMask placement th.mask role).1
    rw [members_deriveAudioCpuMask] at hpool
    have htwo := Finset.card_le_card hpool
    rw [card_top] at htwo
    rw [h.mask]
    exact htwo.trans (Nat.min_le_left ..)

theorem Granted.eroded (h : Granted th call th') (heroded : th.Eroded allowed) : th'.Eroded allowed := by
  have hrun := Finset.card_pos.2 h.runnable
  have hless : (members th'.mask).card ≤ (members th.mask).card :=
    Finset.card_le_card (h.mask ▸ members_narrow call th.mask)
  cases haudio : call.isAudio with
  | true =>
    have hcount : th'.granted.countP AffinityCall.isAudio = th.granted.countP AffinityCall.isAudio + 1 := by
      rw [h.granted, List.countP_append, List.countP_singleton, if_pos haudio]
    obtain ⟨htwo, hfewer⟩ := h.audio_card haudio
    constructor
    · intro hzero
      omega
    · intro _
      refine ⟨hrun, ?_⟩
      rcases Nat.eq_zero_or_pos (th.granted.countP AffinityCall.isAudio) with hzero | hpos
      · omega
      · have hbound := (heroded.audio hpos).2
        omega
  | false =>
    have hcount : th'.granted.countP AffinityCall.isAudio = th.granted.countP AffinityCall.isAudio := by
      rw [h.granted, List.countP_append, List.countP_singleton, if_neg (haudio ▸ Bool.false_ne_true), Nat.add_zero]
    constructor
    · intro hzero
      have hbottom := heroded.ui (hcount.symm.trans hzero)
      have hcard := congrArg Finset.card hbottom
      rw [card_bottom] at hcard
      have hui : members th'.mask = members (deriveUiCpuMask th.mask) := by
        cases call with
        | ui => exact congrArg members h.mask
        | audio placement role => cases haudio
      rw [hui, members_deriveUiCpuMask_eq, hcard, hbottom, bottom_bottom, h.granted, List.length_append,
        List.length_singleton]
      have hsome : 1 ≤ (members th.mask).card := hrun.trans_le hless
      congr 1
      omega
    · intro hpos
      have hbound := (heroded.audio (hcount ▸ hpos)).2
      exact ⟨hrun, by omega⟩

/-- How far the calls narrow a line of descent, in every run. The UI call takes the two highest CPUs off again on each
thread of the line that makes it, so that after `k` of them the `card - 2 * k` lowest are left, and one at least. The
audio call does not: two of them at most are ever granted on a line, whatever the placements and the roles. -/
theorem affinity_erodes (allowed : CpuSet n) (as : List ProcessAct) :
    ∀ th ∈ (run Process.step (Process.start allowed) as).threads,
      (th.granted.countP AffinityCall.isAudio = 0 →
        members th.mask = bottom (max 1 ((members allowed).card - 2 * th.granted.length)) (members allowed)) ∧
      th.granted.countP AffinityCall.isAudio ≤ 2 := by
  intro th hmem
  have hfirst : ({ mask := allowed } : AffinityThread n).Eroded allowed := by
    constructor
    · intro _
      have hall : (members allowed).card ≤ max 1 ((members allowed).card - 2 * 0) := by omega
      exact (bottom_of_card_le hall).symm
    · intro hpos
      cases hpos
  have heroded := Process.thread_rule hfirst (fun _ _ _ h => h.eroded) as th hmem
  refine ⟨heroded.ui, ?_⟩
  rcases Nat.eq_zero_or_pos (th.granted.countP AffinityCall.isAudio) with hzero | hpos
  · omega
  · have hbound := heroded.audio hpos
    omega

/-- Two UI threads in one line leave two CPUs of six. -/
theorem affinity_erodes_two :
    let spawned : AffinityThread 6 := { mask := 0b000011#6, granted := [.ui, .ui] }
    spawned ∈ (run Process.step (Process.start 0b111111#6) [.applyCurrentThreadUiAffinity 0 true true, .spawn 0,
      .applyCurrentThreadUiAffinity 1 true true]).threads ∧
    members spawned.mask = bottom 2 (members 0b111111#6) := by
  intro spawned
  have hmem : spawned ∈ (run Process.step (Process.start 0b111111#6) [.applyCurrentThreadUiAffinity 0 true true,
      .spawn 0, .applyCurrentThreadUiAffinity 1 true true]).threads := List.mem_of_getElem? (i := 1) rfl
  have hcard : (members 0b111111#6).card = 6 := by decide
  have hleft := (affinity_erodes _ _ spawned hmem).1 rfl
  rw [hcard] at hleft
  exact ⟨hmem, hleft⟩

end

end UacDriver
