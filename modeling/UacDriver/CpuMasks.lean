import Mathlib.Data.Finset.SymmDiff
import UacDriver.Lib.Ranks

/-!
# The CPU masks of the audio and the UI threads

The masks that `ThreadUtils.h` derives from the allowed CPUs, loop by loop. A `cpu_set_t` is a bit vector; its size
`CPU_SETSIZE` is that of the C library and stays a parameter. What a mask is for is said of its members, a set of CPU
numbers: the scan that counts ranks finds the two highest.
-/

namespace UacDriver

open Ranks

/-- `cpu_set_t`, with `CPU_SETSIZE` bits. -/
abbrev CpuSet (CPU_SETSIZE : Nat) := BitVec CPU_SETSIZE

section

variable {n : Nat}

/-! ### The macros -/

def cpuIsSet (cpu : Nat) (set : CpuSet n) : Bool := set.getLsbD cpu

def cpuZero : CpuSet n := 0#n

def cpuSet (cpu : Nat) (set : CpuSet n) : CpuSet n := set ||| BitVec.twoPow n cpu

def cpuCount (set : CpuSet n) : Nat := (List.range n).countP (cpuIsSet · set)

def cpuXor (set set' : CpuSet n) : CpuSet n := set ^^^ set'

/-! ### The masks -/

/-- The scan of `deriveAudioCpuMask` at one CPU: the rank of the next allowed CPU, and what is chosen so far. -/
def audioScan (allowed : CpuSet n) (firstRank lastRank : Nat) (st : Nat × CpuSet n) (cpu : Nat) : Nat × CpuSet n :=
  if !cpuIsSet cpu allowed then st
  else (st.1 + 1, if st.1 ≥ firstRank ∧ st.1 ≤ lastRank then cpuSet cpu st.2 else st.2)

def deriveAudioCpuMask (allowed : CpuSet n) : CpuSet n :=
  let allowedCount := (List.range n).foldl (fun count cpu => count + if cpuIsSet cpu allowed then 1 else 0) 0
  if allowedCount = 0 then cpuZero
  else
    -- `std::max(0, allowedCount - 2)` is the subtraction of naturals
    let firstRank := allowedCount - 2
    let lastRank := allowedCount - 1
    ((List.range n).foldl (audioScan allowed firstRank lastRank) (0, cpuZero)).2

inductive AudioCpuRole where
  | render
  | service
  deriving DecidableEq

inductive ServiceCpuPlacement where
  | oneCoreOfPool
  | wholePool
  | exclusiveSplit
  deriving DecidableEq

/-- The loop that breaks at the first CPU of a mask; `none` is its -1. -/
def lowestCpu (pool : CpuSet n) : Option Nat := (List.range n).find? (cpuIsSet · pool)

/-- The CPUs of a mask but one. -/
def restOfPool (pool : CpuSet n) (lowest : Nat) : CpuSet n :=
  (List.range n).foldl (fun chosen cpu => if cpuIsSet cpu pool ∧ cpu ≠ lowest then cpuSet cpu chosen else chosen) cpuZero

/-- `placement` is what `serviceCpuPlacementFlag` holds. -/
def deriveAudioRoleCpuMask (placement : ServiceCpuPlacement) (allowed : CpuSet n) (role : AudioCpuRole) : CpuSet n :=
  let pool := deriveAudioCpuMask allowed
  if placement = .exclusiveSplit then
    match lowestCpu pool with
    | none => pool
    | some lowest =>
      if cpuCount pool < 2 then pool
      else if role = .service then cpuSet lowest cpuZero
      else restOfPool pool lowest
  else if role = .render then pool
  else if placement = .wholePool then pool
  else
    match lowestCpu pool with
    | none => allowed
    | some lowestPool => cpuSet lowestPool cpuZero

def deriveUiCpuMask (allowed : CpuSet n) : CpuSet n :=
  let allowedCount := cpuCount allowed
  if allowedCount = 0 then allowed
  else if allowedCount ≤ 2 then
    match lowestCpu allowed with
    | none => cpuZero
    | some cpu => cpuSet cpu cpuZero
  else cpuXor allowed (deriveAudioCpuMask allowed)

/-! ### The members of a mask -/

def members (set : CpuSet n) : Finset Nat := (Finset.range n).filter fun cpu => cpuIsSet cpu set

variable {set set' allowed pool : CpuSet n} {cpu : Nat}

theorem cpuIsSet_lt (h : cpuIsSet cpu set = true) : cpu < n := BitVec.lt_of_getLsbD h

@[simp] theorem mem_members : cpu ∈ members set ↔ cpuIsSet cpu set = true := by
  rw [members, Finset.mem_filter, Finset.mem_range]
  exact and_iff_right_of_imp cpuIsSet_lt

@[simp] theorem members_cpuZero : members (cpuZero : CpuSet n) = ∅ := by
  ext cpu
  simp [cpuIsSet, cpuZero]

theorem members_cpuSet (h : cpu < n) (set : CpuSet n) : members (cpuSet cpu set) = insert cpu (members set) := by
  ext c
  simp only [mem_members, cpuIsSet, cpuSet, BitVec.getLsbD_or, BitVec.getLsbD_twoPow, h, decide_true, Bool.true_and,
    Bool.or_eq_true, decide_eq_true_eq, Finset.mem_insert]
  tauto

theorem members_cpuXor : members (cpuXor set set') = symmDiff (members set) (members set') := by
  ext cpu
  simp only [mem_members, cpuIsSet, cpuXor, BitVec.getLsbD_xor, Finset.mem_symmDiff]
  cases set.getLsbD cpu <;> cases set'.getLsbD cpu <;> simp

theorem members_single (h : cpu < n) : members (cpuSet cpu (cpuZero : CpuSet n)) = {cpu} := by
  rw [members_cpuSet h, members_cpuZero, insert_empty_eq]

theorem cpuCount_eq (set : CpuSet n) : cpuCount set = (members set).card := by
  rw [cpuCount, List.countP_eq_length_filter, members, Finset.card_def, Finset.filter_val, Finset.range_val,
    Multiset.range, Multiset.filter_coe, Multiset.coe_card]
  simp only [Bool.decide_eq_true]

theorem lowestCpu_none (h : lowestCpu set = none) : members set = ∅ := by
  ext cpu
  simp only [mem_members, Finset.notMem_empty, iff_false]
  intro hset
  exact List.find?_eq_none.1 h cpu (List.mem_range.2 (cpuIsSet_lt hset)) hset

theorem lowestCpu_some (h : lowestCpu set = some cpu) : cpu ∈ members set :=
  mem_members.2 (List.find?_some (p := (cpuIsSet · set)) h)

theorem lowestCpu_single (h : lowestCpu set = some cpu) : members (cpuSet cpu (cpuZero : CpuSet n)) = {cpu} :=
  members_single (cpuIsSet_lt (mem_members.1 (lowestCpu_some h)))

theorem filter_members_lt (set : CpuSet n) : (members set).filter (· < n) = members set :=
  Finset.filter_true_of_mem fun _ hc => cpuIsSet_lt (mem_members.1 hc)

/-! ### The scans -/

/-- The members with a rank in a range. -/
def ranked (set : CpuSet n) (firstRank lastRank : Nat) : Finset Nat :=
  (members set).filter fun cpu => below (members set) cpu ≥ firstRank ∧ below (members set) cpu ≤ lastRank

theorem mem_ranked {firstRank lastRank : Nat} : cpu ∈ ranked set firstRank lastRank ↔
    cpu ∈ members set ∧ below (members set) cpu ≥ firstRank ∧ below (members set) cpu ≤ lastRank :=
  Finset.mem_filter

/-- What the scan of ranks has found below `i`. -/
structure Scanned (allowed : CpuSet n) (firstRank lastRank i : Nat) (st : Nat × CpuSet n) : Prop where
  rank : st.1 = below (members allowed) i
  chosen : members st.2 = (ranked allowed firstRank lastRank).filter (· < i)

theorem Scanned.step {firstRank lastRank i : Nat} (hi : i < n) {st : Nat × CpuSet n}
    (h : Scanned allowed firstRank lastRank i st) :
    Scanned allowed firstRank lastRank (i + 1) (audioScan allowed firstRank lastRank st i) := by
  have hrank := below_succ (members allowed) i
  have hchosen := filter_lt_succ (ranked allowed firstRank lastRank) i
  rw [← h.chosen] at hchosen
  unfold audioScan
  cases hset : cpuIsSet i allowed with
  | false =>
    have hno : i ∉ members allowed := by rw [mem_members, hset]; exact Bool.false_ne_true
    rw [if_neg hno] at hrank
    rw [if_neg fun hi => hno (mem_ranked.1 hi).1] at hchosen
    exact ⟨h.rank.trans hrank.symm, hchosen.symm⟩
  | true =>
    have hmem : i ∈ members allowed := mem_members.2 hset
    rw [if_pos hmem] at hrank
    rw [Bool.not_true, if_neg Bool.false_ne_true, h.rank]
    refine ⟨hrank.symm, ?_⟩
    dsimp only
    split
    · rename_i hranks
      rw [if_pos (mem_ranked.2 ⟨hmem, hranks⟩)] at hchosen
      rw [members_cpuSet hi, hchosen]
    · rename_i hout
      rw [if_neg fun hi => hout (mem_ranked.1 hi).2] at hchosen
      exact hchosen.symm

theorem Scanned.scan (allowed : CpuSet n) (firstRank lastRank : Nat) {i : Nat} (hi : i ≤ n) :
    Scanned allowed firstRank lastRank i ((List.range i).foldl (audioScan allowed firstRank lastRank) (0, cpuZero)) := by
  induction i with
  | zero => exact ⟨(below_zero _).symm, members_cpuZero.trans (filter_lt_zero _).symm⟩
  | succ i ih =>
    rw [List.range_succ, List.foldl_append]
    exact (ih (Nat.le_of_succ_le hi)).step hi

/-- The loop that counts the allowed CPUs. -/
theorem count_scan (set : CpuSet n) (i : Nat) :
    (List.range i).foldl (fun count cpu => count + if cpuIsSet cpu set then 1 else 0) 0 = below (members set) i := by
  induction i with
  | zero => exact (below_zero _).symm
  | succ i ih =>
    rw [List.range_succ, List.foldl_append, List.foldl_cons, List.foldl_nil, ih, below_succ]
    simp only [mem_members]

/-- The scan picks the two highest. -/
theorem members_deriveAudioCpuMask (allowed : CpuSet n) :
    members (deriveAudioCpuMask allowed) = top 2 (members allowed) := by
  unfold deriveAudioCpuMask
  rw [count_scan, below, filter_members_lt]
  dsimp only
  split
  · rename_i hnone
    rw [members_cpuZero, Finset.card_eq_zero.1 hnone]
    rfl
  · rw [(Scanned.scan allowed _ _ le_rfl).chosen]
    ext cpu
    simp only [Finset.mem_filter, mem_ranked, mem_top_iff_below]
    constructor
    · rintro ⟨⟨hmem, hfirst, -⟩, -⟩
      exact ⟨hmem, hfirst⟩
    · rintro ⟨hmem, hfirst⟩
      have hrank := below_add_above hmem
      exact ⟨⟨hmem, hfirst, by omega⟩, cpuIsSet_lt (mem_members.1 hmem)⟩

theorem members_restOfPool (pool : CpuSet n) (lowest : Nat) :
    members (restOfPool pool lowest) = (members pool).erase lowest := by
  have hloop (i : Nat) (hi : i ≤ n) : members ((List.range i).foldl
      (fun chosen cpu => if cpuIsSet cpu pool ∧ cpu ≠ lowest then cpuSet cpu chosen else chosen) (cpuZero : CpuSet n)) =
      ((members pool).erase lowest).filter (· < i) := by
    induction i with
    | zero => exact members_cpuZero.trans (filter_lt_zero _).symm
    | succ i ih =>
      rw [List.range_succ, List.foldl_append, List.foldl_cons, List.foldl_nil, filter_lt_succ,
        ← ih (Nat.le_of_succ_le hi)]
      simp only [Finset.mem_erase, mem_members, and_comm (a := i ≠ lowest)]
      split
      · exact members_cpuSet hi _
      · rfl
  rw [restOfPool, hloop n le_rfl, Finset.filter_erase, filter_members_lt]

/-! ### The partition -/

theorem members_deriveUiCpuMask (allowed : CpuSet n) :
    members (deriveUiCpuMask allowed) ⊆ members allowed ∧
      ((members allowed).Nonempty → (members (deriveUiCpuMask allowed)).Nonempty) ∧
      (3 ≤ (members allowed).card →
        members (deriveUiCpuMask allowed) = members allowed \ members (deriveAudioCpuMask allowed)) := by
  unfold deriveUiCpuMask
  rw [cpuCount_eq]
  dsimp only
  split
  · exact ⟨subset_rfl, id, fun hthree => by omega⟩
  split
  · refine ⟨?_, ?_, fun hthree => by omega⟩
    · split
      · exact members_cpuZero.trans_subset (Finset.empty_subset _)
      · rename_i cpu hlowest
        rw [lowestCpu_single hlowest]
        exact Finset.singleton_subset_iff.2 (lowestCpu_some hlowest)
    · intro hne
      split
      · rename_i hlowest
        exact absurd (lowestCpu_none hlowest) hne.ne_empty
      · rename_i cpu hlowest
        rw [lowestCpu_single hlowest]
        exact Finset.singleton_nonempty cpu
  · rename_i hmore
    have hrest : members (cpuXor allowed (deriveAudioCpuMask allowed)) =
        members allowed \ members (deriveAudioCpuMask allowed) := by
      rw [members_cpuXor, members_deriveAudioCpuMask]
      exact symmDiff_of_ge top_subset
    rw [hrest]
    refine ⟨Finset.sdiff_subset, fun _ => ?_, fun _ => rfl⟩
    rw [← Finset.card_pos, members_deriveAudioCpuMask, Finset.card_sdiff_of_subset top_subset, card_top]
    omega

/-- A role gets a part of the pool, and never nothing. -/
theorem members_deriveAudioRoleCpuMask (placement : ServiceCpuPlacement) (allowed : CpuSet n) (role : AudioCpuRole) :
    members (deriveAudioRoleCpuMask placement allowed role) ⊆ members (deriveAudioCpuMask allowed) ∧
      ((members allowed).Nonempty → (members (deriveAudioRoleCpuMask placement allowed role)).Nonempty) := by
  have hpool : (members allowed).Nonempty → (members (deriveAudioCpuMask allowed)).Nonempty := by
    intro hne
    have hcard := Finset.card_pos.2 hne
    rw [← Finset.card_pos, members_deriveAudioCpuMask, card_top]
    omega
  have hlowest {cpu : Nat} (h : lowestCpu (deriveAudioCpuMask allowed) = some cpu) :
      members (cpuSet cpu (cpuZero : CpuSet n)) ⊆ members (deriveAudioCpuMask allowed) ∧
        (members (cpuSet cpu (cpuZero : CpuSet n))).Nonempty := by
    rw [lowestCpu_single h]
    exact ⟨Finset.singleton_subset_iff.2 (lowestCpu_some h), Finset.singleton_nonempty cpu⟩
  unfold deriveAudioRoleCpuMask
  dsimp only
  split
  · split
    · exact ⟨subset_rfl, hpool⟩
    rename_i lowest hsome
    split
    · exact ⟨subset_rfl, hpool⟩
    rename_i hsmall
    split
    · exact ⟨(hlowest hsome).1, fun _ => (hlowest hsome).2⟩
    · rw [members_restOfPool]
      refine ⟨Finset.erase_subset _ _, fun _ => ?_⟩
      rw [cpuCount_eq] at hsmall
      rw [← Finset.card_pos, Finset.card_erase_of_mem (lowestCpu_some hsome)]
      omega
  split
  · exact ⟨subset_rfl, hpool⟩
  split
  · exact ⟨subset_rfl, hpool⟩
  split
  · rename_i hnone
    have hempty : members allowed = ∅ := by
      by_contra hne
      exact (hpool (Finset.nonempty_iff_ne_empty.2 hne)).ne_empty (lowestCpu_none hnone)
    rw [hempty]
    exact ⟨Finset.empty_subset _, id⟩
  · rename_i lowestPool hsome
    exact ⟨(hlowest hsome).1, fun _ => (hlowest hsome).2⟩

/-- The split gives the lowest CPU of the pool to the service and the rest to the render thread. -/
theorem exclusiveSplit_spec (hpool : 2 ≤ (members (deriveAudioCpuMask allowed)).card) :
    ∃ lowest ∈ members (deriveAudioCpuMask allowed),
      members (deriveAudioRoleCpuMask .exclusiveSplit allowed .service) = {lowest} ∧
      members (deriveAudioRoleCpuMask .exclusiveSplit allowed .render) =
        (members (deriveAudioCpuMask allowed)).erase lowest := by
  have hsmall : ¬cpuCount (deriveAudioCpuMask allowed) < 2 := by
    rw [cpuCount_eq]
    exact Nat.not_lt.2 hpool
  unfold deriveAudioRoleCpuMask
  dsimp only
  rw [if_pos rfl, if_pos rfl]
  cases hlowest : lowestCpu (deriveAudioCpuMask allowed) with
  | none =>
    rw [lowestCpu_none hlowest, Finset.card_empty] at hpool
    cases hpool
  | some lowest =>
    refine ⟨lowest, lowestCpu_some hlowest, ?_, ?_⟩
    · dsimp only
      rw [if_neg hsmall, if_pos rfl, lowestCpu_single hlowest]
    · dsimp only
      rw [if_neg hsmall, if_neg AudioCpuRole.noConfusion, members_restOfPool]

/-- The masks that are derived from the allowed CPUs: the audio pool is its `min 2` highest members; the UI gets a part of
it, and all the rest where there are three or more; a role gets a part of the pool, and under the split of two CPUs the
roles share them out. -/
theorem cpuMasks_partition (allowed : CpuSet n) :
    (members (deriveAudioCpuMask allowed) ⊆ members allowed ∧
      (members (deriveAudioCpuMask allowed)).card = min 2 (members allowed).card ∧
      ∀ cpu ∈ members (deriveAudioCpuMask allowed), ∀ other ∈ members allowed \ members (deriveAudioCpuMask allowed),
        other < cpu) ∧
    (members (deriveUiCpuMask allowed) ⊆ members allowed ∧
      ((members allowed).Nonempty → (members (deriveUiCpuMask allowed)).Nonempty) ∧
      (3 ≤ (members allowed).card →
        members (deriveUiCpuMask allowed) = members allowed \ members (deriveAudioCpuMask allowed))) ∧
    (∀ placement role,
      members (deriveAudioRoleCpuMask placement allowed role) ⊆ members (deriveAudioCpuMask allowed) ∧
        ((members allowed).Nonempty → (members (deriveAudioRoleCpuMask placement allowed role)).Nonempty)) ∧
    ((members (deriveAudioCpuMask allowed)).card = 2 →
      Disjoint (members (deriveAudioRoleCpuMask .exclusiveSplit allowed .service))
        (members (deriveAudioRoleCpuMask .exclusiveSplit allowed .render)) ∧
      members (deriveAudioRoleCpuMask .exclusiveSplit allowed .service) ∪
        members (deriveAudioRoleCpuMask .exclusiveSplit allowed .render) = members (deriveAudioCpuMask allowed)) := by
  refine ⟨⟨?_, ?_, ?_⟩, members_deriveUiCpuMask allowed,
    fun placement role => members_deriveAudioRoleCpuMask placement allowed role, fun htwo => ?_⟩
  · rw [members_deriveAudioCpuMask]
    exact top_subset
  · rw [members_deriveAudioCpuMask, card_top]
  · rw [members_deriveAudioCpuMask]
    intro cpu hcpu other hother
    obtain ⟨hmem, hno⟩ := Finset.mem_sdiff.1 hother
    exact lt_of_mem_top hcpu hmem hno
  · obtain ⟨lowest, hmem, hservice, hrender⟩ := exclusiveSplit_spec htwo.ge
    rw [hservice, hrender]
    refine ⟨Finset.disjoint_singleton_left.2 (Finset.notMem_erase _ _), ?_⟩
    rw [← Finset.insert_eq, Finset.insert_erase hmem]

/-- The UI is left the CPUs 1 and 7 of the sparse set that also has 15 and 21. -/
example : deriveUiCpuMask (0b1000001000000010000010#96) = 0b0000000000000010000010#96 := by decide

end

end UacDriver
