import UacDriver.PlaybackFifo
import Mathlib.Data.List.Nodup

/-!
# Flushing the playback ring against its two clients

`flushRing` stores zero to `ringTail_` and then to `ringHead_`, although the tail belongs to the thread that drains and
the head to the thread that writes. Here every access to a cursor is a step of its own: a drain loads the head, loads
the tail, copies and stores the tail; a prepare loads the head, then the tail; a commit stores the head.

Each committed byte is known by its place in `log`, and `tags` says for every cell of the ring which committed byte it
holds, so that a byte delivered twice or never committed can be told from its value.
-/

namespace UacDriver

open Circular Cursor Runs

namespace Playback

variable {w : Nat} (p : Playback w)

/-- `drainRing` after its loads: `n` bytes were found at cursor `tail` and copied out. -/
def publishDrain (tail : BitVec w) (n bytes : Nat) : Playback w :=
  { p with
    ring := if 0 < n then { p.ring with tail := tail + BitVec.ofNat w n } else p.ring
    writesSinceDrain := if 0 < n then 0 else p.writesSinceDrain
    playbackUnderruns :=
      if n < bytes ∧ p.playbackStarted ∧ !p.playbackUnderrunActive then p.playbackUnderruns + 1
      else p.playbackUnderruns
    playbackUnderrunActive :=
      if n < bytes then p.playbackUnderrunActive || p.playbackStarted else false
    playbackShortPackets :=
      if n < bytes ∧ 0 < p.stride then p.playbackShortPackets + 1 else p.playbackShortPackets
    playbackShortFrames :=
      if n < bytes ∧ 0 < p.stride then p.playbackShortFrames + (bytes - n) / p.stride
      else p.playbackShortFrames
    playedFrames := if 0 < p.stride then p.playedFrames + n / p.stride else p.playedFrames }

/-- The frames admitted between the cursors loaded. The free bytes are a `size_t` difference. -/
def admissibleAt (head tail : BitVec w) : Nat :=
  let queuedBytes := head - tail
  let queuedFrames := queuedBytes.toNat / p.stride
  let physicalFrames := (BitVec.ofNat w p.ring.size.bytes - queuedBytes).toNat / p.stride
  let logicalFrames := if queuedFrames < p.frameLimit then p.frameLimit - queuedFrames else 0
  min physicalFrames logicalFrames

/-- `preparePlaybackWrite` after its loads. -/
def prepareAt (head tail : BitVec w) (requestedFrames : Int) : Playback w × PlaybackWriteRegion w :=
  if requestedFrames ≤ 0 ∨ p.stride = 0 then (p, {})
  else
    let requested := requestedFrames.toNat
    let admitted := min requested (p.admissibleAt head tail)
    let p' := { p with
      playbackOverruns :=
        if admitted < requested ∧ !p.playbackOverrunActive then p.playbackOverruns + 1 else p.playbackOverruns
      playbackOverrunActive := decide (admitted < requested) }
    if admitted = 0 then (p', {})
    else
      let bytes := admitted * p.stride
      let offset := p.ring.offset head
      let first := min bytes (p.ring.size.bytes - offset)
      (p', { first := offset, firstBytes := first, secondBytes := bytes - first,
             producerCursor := head, frames := admitted, frameStride := p.stride })

def flushTail : Playback w := { p with ring := { p.ring with tail := 0 } }

/-- The rest of `flushRing`: the head, then the position counters. -/
def flushHead : Playback w := { p with ring := { p.ring with head := 0 }, writtenFrames := 0, playedFrames := 0 }

variable {p}

/-- A drain that nothing interrupts. -/
theorem drainRing_eq_publishDrain (bytes : Nat) :
    (p.drainRing bytes).1 = p.publishDrain p.ring.tail (p.drainCount bytes) bytes := rfl

theorem admissibleAt_eq (hused : p.ring.used ≤ p.ring.size.bytes) :
    p.admissibleAt p.ring.head p.ring.tail = p.admissible := by
  have hfree : (BitVec.ofNat w p.ring.size.bytes - (p.ring.head - p.ring.tail)).toNat =
      p.ring.size.bytes - p.ring.used := by
    have hlt := p.ring.size.lt
    have hword : p.ring.head - p.ring.tail = BitVec.ofNat w p.ring.used := by
      rw [Ring.used, Cursor.dist, BitVec.ofNat_toNat, BitVec.setWidth_eq]
    rw [hword]
    exact dist_ofNat hused (by omega)
  simp only [admissibleAt, admissible, hfree]
  rfl

/-- A prepare that nothing interrupts. -/
theorem prepareAt_eq (hused : p.ring.used ≤ p.ring.size.bytes) (frames : Int) :
    p.prepareAt p.ring.head p.ring.tail frames = p.preparePlaybackWrite frames := by
  simp only [prepareAt, preparePlaybackWrite, admissibleAt_eq hused]

end Playback

/-- The place of the drain, with its locals; `out` are the bytes copied, each with the tag of its cell. -/
inductive DrainPc (w : Nat) where
  | idle
  | haveHead (bytes : Nat) (head : BitVec w)
  | haveCursors (bytes : Nat) (head tail : BitVec w)
  | copied (bytes : Nat) (tail : BitVec w) (out : List (UInt8 × Option Nat))
  deriving DecidableEq

inductive PreparePc (w : Nat) where
  | idle
  | haveHead (frames : Int) (head : BitVec w)
  deriving DecidableEq

structure FlushRace (w : Nat) where
  pb : Playback w
  region : PlaybackWriteRegion w := {}
  prepare : PreparePc w := .idle
  drain : DrainPc w := .idle
  /-- Between the two stores of `flushRing`. -/
  flushing : Bool := false
  /-- History: the bytes committed so far. -/
  log : List UInt8 := []
  /-- History: the place in `log` of the byte a cell holds, nothing while it is being filled. -/
  tags : Nat → Option Nat := fun _ => none
  delivered : List (UInt8 × Option Nat) := []
  /-- History: the length of `log` when the last flush completed, and what was delivered since. -/
  base : Nat := 0
  since : List (UInt8 × Option Nat) := []

inductive FlushAct where
  /-- The first load of `preparePlaybackWrite`, then the rest of it. -/
  | prepare (frames : Int)
  | prepared
  | fillFirst (at_ : Nat) (xs : List UInt8)
  | fillSecond (at_ : Nat) (xs : List UInt8)
  | commit
  | abandon
  /-- The first load of `drainRing`, then its next step. -/
  | drain (bytes : Nat)
  | drainNext
  /-- The next store of `flushRing`. -/
  | flush
  | policy (started : Bool) (target prime headroom : Nat)

namespace FlushRace

variable {w : Nat}

/-- A cell's byte with its tag. -/
def cells (s : FlushRace w) (i : Nat) : UInt8 × Option Nat := (s.pb.ring.data i, s.tags i)

/-- The two copies of `drainRing`, tags included. -/
def copyAt (s : FlushRace w) (c : BitVec w) (n : Nat) : List (UInt8 × Option Nat) :=
  let first := min n (s.pb.ring.size.bytes - s.pb.ring.offset c)
  copyOut s.cells (s.pb.ring.offset c) first ++ copyOut s.cells 0 (n - first)

def regionBytes (s : FlushRace w) : List UInt8 :=
  copyOut s.pb.ring.data s.region.first s.region.firstBytes ++ copyOut s.pb.ring.data 0 s.region.secondBytes

/-- Bytes stored by the producer: the cells hold no committed byte until the commit. -/
def fill (s : FlushRace w) (off : Nat) (xs : List UInt8) : FlushRace w :=
  { s with pb := s.pb.store off xs, tags := blit s.tags off (List.replicate xs.length none) }

/-- The tags of the region's cells: the places of its bytes in the log. -/
def regionTags (s : FlushRace w) : List (Option Nat) :=
  (List.range' s.log.length (s.region.firstBytes + s.region.secondBytes)).map some

def commit (s : FlushRace w) : FlushRace w :=
  { s with
    pb := s.pb.commitPlaybackWrite s.region
    log := s.log ++ s.regionBytes
    tags := blit (blit s.tags s.region.first (s.regionTags.take s.region.firstBytes)) 0
      (s.regionTags.drop s.region.firstBytes)
    region := {} }

def drainNext (s : FlushRace w) : FlushRace w :=
  match s.drain with
  | .idle => s
  | .haveHead bytes head => { s with drain := .haveCursors bytes head s.pb.ring.tail }
  | .haveCursors bytes head tail => { s with drain := .copied bytes tail (s.copyAt tail (min (dist head tail) bytes)) }
  | .copied bytes tail out =>
    { s with
      pb := s.pb.publishDrain tail out.length bytes
      drain := .idle, delivered := s.delivered ++ out, since := s.since ++ out }

def flush (s : FlushRace w) : FlushRace w :=
  if s.flushing then { s with pb := s.pb.flushHead, flushing := false, base := s.log.length, since := [] }
  else { s with pb := s.pb.flushTail, flushing := true }

def step (s : FlushRace w) : FlushAct → FlushRace w
  | .prepare frames =>
    match s.prepare with
    | .idle => { s with prepare := .haveHead frames s.pb.ring.head }
    | _ => s
  | .prepared =>
    match s.prepare with
    | .haveHead frames head =>
      { s with
        pb := (s.pb.prepareAt head s.pb.ring.tail frames).1
        region := (s.pb.prepareAt head s.pb.ring.tail frames).2
        prepare := .idle }
    | _ => s
  | .fillFirst o xs =>
    match s.prepare with
    | .idle => if o + xs.length ≤ s.region.firstBytes then s.fill (s.region.first + o) xs else s
    | _ => s
  | .fillSecond o xs =>
    match s.prepare with
    | .idle => if o + xs.length ≤ s.region.secondBytes then s.fill o xs else s
    | _ => s
  | .commit =>
    match s.prepare with
    | .idle => s.commit
    | _ => s
  | .abandon =>
    match s.prepare with
    | .idle => { s with region := {} }
    | _ => s
  | .drain bytes =>
    match s.drain with
    | .idle => { s with drain := .haveHead bytes s.pb.ring.head }
    | _ => s
  | .drainNext => s.drainNext
  | .flush => s.flush
  | .policy started target prime headroom =>
    { s with pb := { s.pb with
        playbackStarted := started, playbackTargetFrames := target, startupPrimeFrames := prime,
        writeHeadroomFrames := headroom } }

/-- A flush keeps to itself: it starts with no drain running, no write prepared or being prepared and the head within
the ring's first revolution, and neither a drain nor a prepare starts between its two stores. -/
def Quiescent (s : FlushRace w) : FlushAct → Prop
  | .flush => s.flushing = false → s.drain = .idle ∧ s.prepare = .idle ∧ s.region.frames = 0 ∧
      s.pb.ring.head.toNat ≤ s.pb.ring.size.bytes
  | .drain _ | .prepare _ => s.flushing = false
  | _ => True

/-! ### The log and the cells -/

/-- The committed bytes with their places. -/
def numbered (log : List UInt8) : List (UInt8 × Option Nat) := log.zip ((List.range' 0 log.length).map some)

@[simp] theorem numbered_length (log : List UInt8) : (numbered log).length = log.length := by simp [numbered]

theorem numbered_append (log xs : List UInt8) :
    numbered (log ++ xs) = numbered log ++ xs.zip ((List.range' log.length xs.length).map some) := by
  rw [numbered, List.length_append, ← List.range'_append_1, List.map_append, List.zip_append (by simp), Nat.zero_add]
  rfl

theorem numbered_nodup (log : List UInt8) : ((numbered log).map Prod.snd).Nodup := by
  rw [numbered, List.map_snd_zip (by simp)]
  exact List.Nodup.map (Option.some_injective _) List.nodup_range'

theorem mem_numbered {log : List UInt8} {e : UInt8 × Option Nat} (h : e ∈ numbered log) :
    ∃ k, e.2 = some k ∧ log[k]? = some e.1 := by
  obtain ⟨k, hk, he⟩ := List.mem_iff_getElem.1 h
  have hk' : k < log.length := by simpa using hk
  refine ⟨k, ?_, ?_⟩
  · rw [← he]
    simp [numbered]
  · rw [← he, List.getElem?_eq_getElem hk']
    simp [numbered]

theorem window_zip {α β : Type*} (f : Nat → α) (g : Nat → β) (cap pos n : Nat) :
    window (fun i => (f i, g i)) cap pos n = (window f cap pos n).zip (window g cap pos n) := by
  rw [window, window, window, List.zip_map']

variable {s : FlushRace w}

variable (s) in
/-- The unread bytes with their tags, oldest first. -/
def unread : List (UInt8 × Option Nat) := window s.cells s.pb.ring.size.bytes s.pb.ring.tail.toNat s.pb.ring.used

@[simp] theorem unread_length : s.unread.length = s.pb.ring.used := window_length ..

theorem unread_congr {s' : FlushRace w} (hring : s'.pb.ring = s.pb.ring) (htags : s'.tags = s.tags) :
    s'.unread = s.unread := by
  have hcells : s'.cells = s.cells := by
    funext i
    simp only [cells, hring, htags]
  simp only [unread, hcells, hring]

theorem map_unread : s.unread.map Prod.fst = s.pb.ring.contents := by
  rw [unread, window, List.map_map]
  rfl

theorem copyAt_eq_window {c : BitVec w} {n : Nat} (hn : n ≤ s.pb.ring.size.bytes) :
    s.copyAt c n = window s.cells s.pb.ring.size.bytes c.toNat n := by
  rw [copyAt, Ring.offset_eq, window_eq_spans _ _ s.pb.ring.size.pos hn]

/-- The unread bytes split at any cursor between tail and head. -/
theorem unread_split {n : Nat} (hn : n ≤ s.pb.ring.used) :
    s.unread = window s.cells s.pb.ring.size.bytes s.pb.ring.tail.toNat n ++
      window s.cells s.pb.ring.size.bytes (s.pb.ring.tail + BitVec.ofNat w n).toNat (s.pb.ring.used - n) := by
  rw [unread]
  conv_lhs => rw [show s.pb.ring.used = n + (s.pb.ring.used - n) by omega, window_add]
  congr 1
  exact window_congr_pos (toNat_add_mod s.pb.ring.size.dvd_word _ _).symm _

/-! ### The invariant -/

/-- The region is empty, or it lies in the free bytes behind the head. -/
def RegionOk (s : FlushRace w) : Prop :=
  (s.region.frames = 0 ∧ s.region.firstBytes = 0 ∧ s.region.secondBytes = 0) ∨ s.region.Fits s.pb

/-- What a drain in progress knows stays true: the head it loaded is not ahead, the tail is its own. -/
def DrainOk (s : FlushRace w) : Prop :=
  match s.drain with
  | .idle => True
  | .haveHead _ head => dist head s.pb.ring.tail ≤ s.pb.ring.used
  | .haveCursors _ head tail => tail = s.pb.ring.tail ∧ dist head s.pb.ring.tail ≤ s.pb.ring.used
  | .copied _ tail out => tail = s.pb.ring.tail ∧ ∃ rest, s.unread = out ++ rest

def PrepareOk (s : FlushRace w) : Prop :=
  match s.prepare with
  | .idle => True
  | .haveHead _ head => head = s.pb.ring.head

/-- Outside a flush: the bytes committed since the last flush are those delivered since, then the unread ones. -/
structure Live (s : FlushRace w) : Prop where
  region : s.RegionOk
  prepare : s.PrepareOk
  drain : s.DrainOk
  base_le : s.base ≤ s.log.length
  fifo : (numbered s.log).drop s.base = s.since ++ s.unread
  delivered : s.delivered.Sublist ((numbered s.log).take (s.base + s.since.length))

/-- Between the two stores. -/
structure Mid (s : FlushRace w) : Prop where
  region : s.region.frames = 0 ∧ s.region.firstBytes = 0 ∧ s.region.secondBytes = 0
  prepare : s.prepare = .idle
  drain : s.drain = .idle
  tail : s.pb.ring.tail = 0
  delivered : s.delivered.Sublist (numbered s.log)

structure Inv (s : FlushRace w) : Prop where
  used_le : s.pb.ring.used ≤ s.pb.ring.size.bytes
  live : s.flushing = false → s.Live
  mid : s.flushing = true → s.Mid

theorem cells_fill (off : Nat) (xs : List UInt8) :
    (s.fill off xs).cells = blit s.cells off (xs.zip (List.replicate xs.length none)) := by
  funext i
  simp only [cells, fill, Playback.store, blit]
  by_cases h : off ≤ i ∧ i - off < xs.length
  · simp [h]
  · simp [h]

/-- A region cell is one of the free cells behind the head. -/
theorem regionCell_free (h : s.region.Fits s.pb) {i : Nat}
    (hi : (s.region.first ≤ i ∧ i < s.region.first + s.region.firstBytes) ∨ i < s.region.secondBytes) :
    ∃ j < s.region.frames * s.region.frameStride, i = (s.pb.ring.head.toNat + j) % s.pb.ring.size.bytes :=
  PlaybackRun.RegionCell.free (s := { pb := s.pb, region := s.region }) h hi

/-- The free cells behind the head hold no unread byte. -/
theorem window_blit_free {α : Type*} (h : s.region.Fits s.pb) {off : Nat} {xs : List α}
    (hcell : ∀ i, off ≤ i → i < off + xs.length →
      (s.region.first ≤ i ∧ i < s.region.first + s.region.firstBytes) ∨ i < s.region.secondBytes) (mem : Nat → α) :
    window (blit mem off xs) s.pb.ring.size.bytes s.pb.ring.tail.toNat s.pb.ring.used =
      window mem s.pb.ring.size.bytes s.pb.ring.tail.toNat s.pb.ring.used := by
  have hfit := h.fit
  refine window_blit_of_cells (q := s.pb.ring.tail.toNat + s.pb.ring.used) (n := s.region.frames * s.region.frameStride)
    (fun i h₁ h₂ => ?_) le_rfl (by omega)
  obtain ⟨j, hj, he⟩ := regionCell_free h (hcell i h₁ h₂)
  refine ⟨j, hj, he.trans ?_⟩
  rw [Nat.add_mod, toNat_mod_eq_add_dist s.pb.ring.size.dvd_word s.pb.ring.head s.pb.ring.tail, ← Nat.add_mod]
  rfl

namespace Live

/-- What a step keeps if it leaves the ring's cursors and the unread bytes alone. -/
theorem congr {s' : FlushRace w} (h : s.Live) (hregion : s'.RegionOk) (hprepare : s'.PrepareOk) (hdrain : s'.DrainOk)
    (hunread : s'.unread = s.unread) (hlog : s'.log = s.log) (hbase : s'.base = s.base) (hsince : s'.since = s.since)
    (hdelivered : s'.delivered = s.delivered) : s'.Live := by
  refine ⟨hregion, hprepare, hdrain, ?_, ?_, ?_⟩
  · rw [hbase, hlog]
    exact h.base_le
  · rw [hbase, hlog, hsince, hunread]
    exact h.fifo
  · rw [hbase, hlog, hsince, hdelivered]
    exact h.delivered

theorem prepared (h : s.Live) (hused : s.pb.ring.used ≤ s.pb.ring.size.bytes) {frames : Int} {head : BitVec w}
    (hpc : s.prepare = .haveHead frames head) : (s.step .prepared).Live := by
  have hhead : head = s.pb.ring.head := by
    have := h.prepare
    rw [PrepareOk, hpc] at this
    exact this
  subst hhead
  have hring := s.pb.preparePlaybackWrite_ring frames
  have hstep : s.step .prepared =
      { s with
        pb := (s.pb.preparePlaybackWrite frames).1, region := (s.pb.preparePlaybackWrite frames).2, prepare := .idle } := by
    simp only [step, hpc, Playback.prepareAt_eq hused]
  rw [hstep]
  have hunread : FlushRace.unread { s with
      pb := (s.pb.preparePlaybackWrite frames).1, region := (s.pb.preparePlaybackWrite frames).2, prepare := .idle } =
      s.unread := unread_congr hring rfl
  refine h.congr ?_ trivial ?_ hunread rfl rfl rfl rfl
  · rcases Playback.preparePlaybackWrite_region hused frames with hr | ⟨hr, -⟩
    · exact .inl (by simp [hr])
    · refine .inr ⟨?_, ?_, ?_, ?_, hr.secondBytes, ?_⟩ <;>
        simp only [hring, Playback.preparePlaybackWrite_stride]
      exacts [hr.cursor, hr.stride, hr.first, hr.firstBytes, hr.fit]
  · have hd := h.drain
    unfold DrainOk at hd ⊢
    simp only [hring, hunread]
    exact hd

theorem fill (h : s.Live) {off : Nat} {xs : List UInt8}
    (hcell : ∀ i, off ≤ i → i < off + xs.length →
      (s.region.first ≤ i ∧ i < s.region.first + s.region.firstBytes) ∨ i < s.region.secondBytes) :
    (s.fill off xs).Live := by
  have hunread : (s.fill off xs).unread = s.unread := by
    show window (s.fill off xs).cells s.pb.ring.size.bytes s.pb.ring.tail.toNat s.pb.ring.used = _
    rw [cells_fill]
    rcases h.region with hr | hr
    · -- no region: nothing can be stored
      have hnil : xs = [] := by
        refine List.eq_nil_of_length_eq_zero (Nat.eq_zero_of_not_pos fun hpos => ?_)
        have := hcell off le_rfl (by omega)
        omega
      rw [hnil]
      simp only [List.zip_nil_left, blit_nil]
      rfl
    · exact window_blit_free hr (fun i h₁ h₂ => hcell i h₁ (by simpa using h₂)) _
  refine h.congr ?_ h.prepare ?_ hunread rfl rfl rfl rfl
  · rcases h.region with hr | hr
    · exact .inl hr
    · exact .inr ⟨hr.cursor, hr.stride, hr.first, hr.firstBytes, hr.secondBytes, hr.fit⟩
  · have hd := h.drain
    unfold DrainOk at hd ⊢
    rw [hunread]
    exact hd

theorem length_eq (h : s.Live) : s.base + s.since.length + s.pb.ring.used = s.log.length := by
  have hlen := congrArg List.length h.fifo
  have hbase := h.base_le
  simp only [List.length_drop, numbered_length, List.length_append, unread_length] at hlen
  omega

/-- The copy takes the first unread bytes. -/
theorem copy (h : s.Live) (hused : s.pb.ring.used ≤ s.pb.ring.size.bytes) {bytes : Nat} {head tail : BitVec w}
    (hpc : s.drain = .haveCursors bytes head tail) : s.drainNext.Live := by
  obtain ⟨rfl, hle⟩ : tail = s.pb.ring.tail ∧ dist head s.pb.ring.tail ≤ s.pb.ring.used := by
    have := h.drain
    rw [DrainOk, hpc] at this
    exact this
  have hn : min (dist head s.pb.ring.tail) bytes ≤ s.pb.ring.used := (Nat.min_le_left ..).trans hle
  simp only [drainNext, hpc]
  refine h.congr h.region h.prepare ⟨rfl, ?_⟩ rfl rfl rfl rfl rfl
  rw [copyAt_eq_window (hn.trans hused)]
  exact ⟨_, unread_split hn⟩

/-- A drain that has copied publishes: the bytes copied leave the unread ones. -/
theorem publish (h : s.Live) {bytes : Nat} {tail : BitVec w} {out : List (UInt8 × Option Nat)}
    (hpc : s.drain = .copied bytes tail out) :
    s.drainNext.Live ∧ s.drainNext.pb.ring.used ≤ s.pb.ring.used ∧ s.drainNext.pb.ring.size = s.pb.ring.size := by
  obtain ⟨rfl, rest, hrest⟩ : tail = s.pb.ring.tail ∧ ∃ rest, s.unread = out ++ rest := by
    have := h.drain
    rw [DrainOk, hpc] at this
    exact this
  have hn : out.length ≤ s.pb.ring.used := by
    rw [← unread_length, hrest, List.length_append]
    omega
  have hring : (s.pb.publishDrain s.pb.ring.tail out.length bytes).ring = s.pb.ring.advanceTail out.length := by
    simp only [Playback.publishDrain]
    split
    · rfl
    · rename_i hz
      rw [Nat.eq_zero_of_not_pos hz]
      simp [Ring.advanceTail]
  have hused := Ring.used_advanceTail hn
  have hlen := h.length_eq
  have hstep : s.drainNext = { s with
      pb := s.pb.publishDrain s.pb.ring.tail out.length bytes, drain := .idle, delivered := s.delivered ++ out,
      since := s.since ++ out } := by
    simp only [drainNext, hpc]
  have hunread : s.drainNext.unread = rest := by
    have hsplit := hrest.symm.trans (unread_split hn)
    have hcells : s.drainNext.cells = s.cells := by
      rw [hstep]
      funext i
      simp only [cells, hring]
      rfl
    rw [(List.append_inj hsplit (by simp)).2, unread, hcells, hstep]
    simp only [hring, hused]
    rfl
  have hout : ((numbered s.log).drop (s.base + s.since.length)).take out.length = out := by
    rw [← List.drop_drop, h.fifo, List.drop_left, hrest, List.take_left]
  refine ⟨⟨?_, ?_, ?_, ?_, ?_, ?_⟩, ?_, ?_⟩
  · rw [hstep]
    rcases h.region with hr | hr
    · exact .inl hr
    · have hfit := hr.fit
      refine .inr ⟨?_, hr.stride, ?_, ?_, hr.secondBytes, ?_⟩ <;> simp only [hring]
      exacts [hr.cursor, hr.first, hr.firstBytes, by rw [hused]; exact (Nat.add_le_add_right (Nat.sub_le ..) _).trans hfit]
  · rw [hstep]
    have hp := h.prepare
    unfold PrepareOk at hp ⊢
    simp only [hring]
    exact hp
  · rw [hstep]
    trivial
  · rw [hstep]
    exact h.base_le
  · rw [hunread, hstep]
    show (numbered s.log).drop s.base = s.since ++ out ++ rest
    rw [h.fifo, hrest, List.append_assoc]
  · rw [hstep]
    show (s.delivered ++ out).Sublist ((numbered s.log).take (s.base + (s.since ++ out).length))
    rw [List.length_append, ← Nat.add_assoc, List.take_add, hout]
    exact h.delivered.append (List.Sublist.refl _)
  · rw [hstep]
    show (s.pb.publishDrain s.pb.ring.tail out.length bytes).ring.used ≤ _
    rw [hring, hused]
    exact Nat.sub_le ..
  · rw [hstep]
    show (s.pb.publishDrain s.pb.ring.tail out.length bytes).ring.size = _
    rw [hring]
    rfl

end Live

/-! ### Committing -/

section Commit

variable (hr : s.region.Fits s.pb)
include hr

theorem regionSpan_length : s.region.firstBytes + s.region.secondBytes = s.region.frames * s.region.frameStride := by
  have h₁ := hr.firstBytes
  have h₂ := hr.secondBytes
  omega

theorem regionTags_length : s.regionTags.length = s.region.frames * s.region.frameStride := by
  rw [regionTags, List.length_map, List.length_range', regionSpan_length hr]

theorem regionBytes_eq : s.regionBytes =
    window s.pb.ring.data s.pb.ring.size.bytes s.pb.ring.head.toNat (s.region.frames * s.region.frameStride) :=
  PlaybackRun.regionBytes_of_fits (s := { pb := s.pb, region := s.region }) hr

theorem commit_ring : s.commit.pb.ring = s.pb.ring.advanceHead (s.region.frames * s.region.frameStride) := by
  show (s.pb.commitPlaybackWrite s.region).ring = _
  unfold Playback.commitPlaybackWrite
  split
  · rename_i h0
    simp [Nat.mul_eq_zero.2 h0, Ring.advanceHead]
  · simp [Ring.advanceHead, hr.cursor]

/-- After the commit the region's cells carry the places of its bytes. -/
theorem window_commit_region :
    window s.commit.tags s.pb.ring.size.bytes s.pb.ring.head.toNat (s.region.frames * s.region.frameStride) =
      s.regionTags := by
  have hfit := hr.fit
  have hlen := regionTags_length hr
  have hsplit : ∀ n, min s.regionTags.length n = s.region.firstBytes →
      s.regionTags.take n = s.regionTags.take s.region.firstBytes ∧
      s.regionTags.drop n = s.regionTags.drop s.region.firstBytes := by
    intro n hn
    rcases Nat.le_total s.regionTags.length n with hle | hle
    · rw [Nat.min_eq_left hle] at hn
      rw [← hn, List.take_of_length_le hle, List.drop_of_length_le hle, List.take_length, List.drop_length]
      exact ⟨rfl, rfl⟩
    · rw [Nat.min_eq_right hle] at hn
      rw [hn]
      exact ⟨rfl, rfl⟩
  obtain ⟨htake, hdrop⟩ := hsplit (s.pb.ring.size.bytes - s.pb.ring.head.toNat % s.pb.ring.size.bytes)
    (by rw [hlen, hr.firstBytes])
  have hspans := window_blit_spans s.tags s.pb.ring.head.toNat s.regionTags s.pb.ring.size.pos (by omega)
  rw [htake, hdrop, hlen, ← hr.first] at hspans
  exact hspans

theorem window_commit_unread :
    window s.commit.tags s.pb.ring.size.bytes s.pb.ring.tail.toNat s.pb.ring.used =
      window s.tags s.pb.ring.size.bytes s.pb.ring.tail.toNat s.pb.ring.used := by
  have hspan := regionSpan_length hr
  have hlen := regionTags_length hr
  show window (blit (blit s.tags _ _) 0 _) _ _ _ = _
  rw [window_blit_free hr (fun i _ h₂ => ?_), window_blit_free hr (fun i h₁ h₂ => ?_)]
  · rw [List.length_take] at h₂
    exact .inl ⟨h₁, by omega⟩
  · rw [List.length_drop] at h₂
    exact .inr (by omega)

theorem commit_unread :
    s.commit.unread = s.unread ++ s.regionBytes.zip s.regionTags := by
  have hfit := hr.fit
  have hcells : s.commit.cells = fun i => (s.pb.ring.data i, s.commit.tags i) := by
    funext i
    simp only [cells, commit_ring hr]
    rfl
  have hold : s.unread = (window s.pb.ring.data s.pb.ring.size.bytes s.pb.ring.tail.toNat s.pb.ring.used).zip
      (window s.tags s.pb.ring.size.bytes s.pb.ring.tail.toNat s.pb.ring.used) := window_zip ..
  have hhead : s.pb.ring.head.toNat % s.pb.ring.size.bytes =
      (s.pb.ring.tail.toNat + s.pb.ring.used) % s.pb.ring.size.bytes :=
    toNat_mod_eq_add_dist s.pb.ring.size.dvd_word _ _
  rw [unread, hcells, commit_ring hr, Ring.used_advanceHead hfit]
  show window _ s.pb.ring.size.bytes s.pb.ring.tail.toNat _ = _
  rw [window_add, window_zip, window_commit_unread hr, ← hold, ← window_congr_pos hhead, window_zip,
    window_commit_region hr, ← regionBytes_eq hr]

end Commit

/-- A commit appends the region to the unread bytes. -/
theorem Live.commit (h : s.Live) (hused : s.pb.ring.used ≤ s.pb.ring.size.bytes) (hidle : s.prepare = .idle) :
    s.commit.Live ∧ s.commit.pb.ring.used ≤ s.pb.ring.size.bytes ∧ s.commit.pb.ring.size = s.pb.ring.size := by
  rcases h.region with ⟨hz, h₁, h₂⟩ | hr
  · -- nothing prepared: nothing changes
    have hpb : s.pb.commitPlaybackWrite s.region = s.pb := by simp [Playback.commitPlaybackWrite, hz]
    have hstep : s.commit = { s with region := {} } := by
      simp [FlushRace.commit, hpb, regionBytes, regionTags, h₁, h₂]
    rw [hstep]
    exact ⟨h.congr (.inl ⟨rfl, rfl, rfl⟩) h.prepare h.drain rfl rfl rfl rfl rfl, hused, rfl⟩
  have hfit := hr.fit
  have hunread := commit_unread hr
  have hring := commit_ring hr
  have hlen := h.length_eq
  have hbytes : s.regionBytes.length = s.region.frames * s.region.frameStride := by
    rw [regionBytes_eq hr, window_length]
  have hnumbered : numbered s.commit.log = numbered s.log ++ s.regionBytes.zip s.regionTags := by
    show numbered (s.log ++ s.regionBytes) = _
    rw [numbered_append, regionTags, regionSpan_length hr, hbytes]
  have hused' : s.commit.pb.ring.used = s.pb.ring.used + s.region.frames * s.region.frameStride := by
    rw [hring, Ring.used_advanceHead hfit]
  refine ⟨⟨.inl ⟨rfl, rfl, rfl⟩, ?_, ?_, ?_, ?_, ?_⟩, by omega, by rw [hring]; rfl⟩
  · show PrepareOk s.commit
    simp only [PrepareOk, FlushRace.commit, hidle]
  · have hd := h.drain
    have htail : s.commit.pb.ring.tail = s.pb.ring.tail := by
      rw [hring]
      rfl
    show DrainOk s.commit
    unfold DrainOk at hd ⊢
    rw [show s.commit.drain = s.drain from rfl]
    cases hpc : s.drain with
    | idle => trivial
    | haveHead bytes head =>
      simp only [hpc] at hd
      simp only [htail]
      omega
    | haveCursors bytes head tail =>
      simp only [hpc] at hd
      simp only [htail]
      exact ⟨hd.1, by omega⟩
    | copied bytes tail out =>
      simp only [hpc] at hd
      obtain ⟨ht, rest, hrest⟩ := hd
      simp only [htail]
      refine ⟨ht, rest ++ s.regionBytes.zip s.regionTags, ?_⟩
      rw [hunread, hrest, List.append_assoc]
  · show s.base ≤ (s.log ++ s.regionBytes).length
    rw [List.length_append]
    omega
  · rw [hunread, hnumbered]
    show List.drop s.base _ = s.since ++ _
    rw [List.drop_append_of_le_length (by rw [numbered_length]; omega), h.fifo, List.append_assoc]
  · rw [hnumbered]
    show s.delivered.Sublist (List.take (s.base + s.since.length) _)
    rw [List.take_append_of_le_length (by rw [numbered_length]; omega)]
    exact h.delivered

/-! ### The flush -/

theorem Live.flush (h : s.Live) (hidle : s.flushing = false) (hq : s.Quiescent .flush) : (s.step .flush).Inv := by
  obtain ⟨hdrain, hprepare, hregion, hhead⟩ := hq hidle
  have hstep : s.step .flush = { s with pb := s.pb.flushTail, flushing := true } := by
    simp only [step, FlushRace.flush, hidle, Bool.false_eq_true, if_false]
  rw [hstep]
  refine ⟨?_, fun hf => ?_, fun _ => ⟨?_, hprepare, hdrain, rfl, ?_⟩⟩
  · show (s.pb.ring.head - 0#w).toNat ≤ s.pb.ring.size.bytes
    rw [BitVec.sub_zero]
    exact hhead
  · cases hf
  · rcases h.region with hr | hr
    · exact hr
    · have h₁ := hr.firstBytes
      have h₂ := hr.secondBytes
      rw [hregion, Nat.zero_mul] at h₁ h₂
      rw [Nat.zero_min] at h₁
      rw [Nat.zero_sub] at h₂
      exact ⟨hregion, h₁, h₂⟩
  · exact h.delivered.trans (List.take_sublist _ _)

/-- The flush completes: both cursors are zero, and the log is all history. -/
theorem Mid.flush (h : s.Mid) (hmid : s.flushing = true) :
    (s.step .flush).Inv ∧ (s.step .flush).pb.ring.used = 0 ∧ (s.step .flush).base = s.log.length := by
  have hstep : s.step .flush = { s with
      pb := s.pb.flushHead, flushing := false, base := s.log.length, since := [] } := by
    simp only [step, FlushRace.flush, hmid, if_true]
  have hused : (s.step .flush).pb.ring.used = 0 := by
    rw [hstep]
    show dist 0 s.pb.ring.tail = 0
    rw [h.tail, dist_self]
  refine ⟨⟨?_, fun _ => ⟨?_, ?_, ?_, ?_, ?_, ?_⟩, fun hf => ?_⟩, hused, ?_⟩
  · rw [hused]
    exact Nat.zero_le _
  · rw [hstep]
    exact .inl h.region
  · rw [hstep]
    simp only [PrepareOk, h.prepare]
  · rw [hstep]
    simp only [DrainOk, h.drain]
  · rw [hstep]
  · have hnil : (s.step .flush).unread = [] := List.eq_nil_of_length_eq_zero (by rw [unread_length, hused])
    rw [hnil, hstep]
    show (numbered s.log).drop s.log.length = []
    exact List.drop_of_length_le (by simp)
  · rw [hstep]
    show s.delivered.Sublist ((numbered s.log).take (s.log.length + 0))
    rw [List.take_of_length_le (by simp)]
    exact h.delivered
  · rw [hstep] at hf
    cases hf
  · rw [hstep]

/-- Between the two stores the producer has nothing to store or commit. -/
theorem Mid.producer (h : s.Mid) (hused : s.pb.ring.used ≤ s.pb.ring.size.bytes) (hmid : s.flushing = true)
    {s' : FlushRace w} (hcursors : s'.pb.ring.used = s.pb.ring.used ∧ s'.pb.ring.tail = s.pb.ring.tail ∧
      s'.pb.ring.size = s.pb.ring.size) (hregion : s'.region = s.region ∨ s'.region = {})
    (hprepare : s'.prepare = s.prepare) (hdrain : s'.drain = s.drain) (hflushing : s'.flushing = s.flushing)
    (hlog : s'.log = s.log) (hdelivered : s'.delivered = s.delivered) : s'.Inv := by
  obtain ⟨hu, ht, hz⟩ := hcursors
  refine ⟨?_, fun hf => ?_, fun _ => ⟨?_, hprepare.trans h.prepare, hdrain.trans h.drain, ht.trans h.tail, ?_⟩⟩
  · rw [hu, hz]
    exact hused
  · rw [hflushing, hmid] at hf
    cases hf
  · rcases hregion with hr | hr
    · rw [hr]
      exact h.region
    · rw [hr]
      exact ⟨rfl, rfl, rfl⟩
  · rw [hlog, hdelivered]
    exact h.delivered

/-- Outside a flush. -/
theorem Inv.stepLive (h : s.Inv) (hf : s.flushing = false) (a : FlushAct) (ha : s.Quiescent a) : (s.step a).Inv := by
  have hlive := h.live hf
  have hkeep {s' : FlushRace w} (hl : s'.Live) (hu : s'.pb.ring.used ≤ s'.pb.ring.size.bytes)
      (hs : s'.flushing = s.flushing) : s'.Inv := by
    refine ⟨hu, fun _ => hl, fun ht => ?_⟩
    rw [hs, hf] at ht
    cases ht
  cases a with
  | prepare frames =>
    simp only [FlushRace.step]
    split
    · exact hkeep (hlive.congr hlive.region rfl hlive.drain rfl rfl rfl rfl rfl) h.used_le rfl
    · exact h
  | prepared =>
    cases hpc : s.prepare with
    | idle =>
      simp only [FlushRace.step, hpc]
      exact h
    | haveHead frames head =>
      refine hkeep (hlive.prepared h.used_le hpc) ?_ ?_
      · have hhead : head = s.pb.ring.head := by
          have := hlive.prepare
          rw [PrepareOk, hpc] at this
          exact this
        simp only [FlushRace.step, hpc, hhead, Playback.prepareAt_eq h.used_le, Playback.preparePlaybackWrite_ring]
        exact h.used_le
      · simp only [FlushRace.step, hpc]
  | fillFirst o xs =>
    simp only [FlushRace.step]
    split
    · split
      · exact hkeep (hlive.fill fun i h₁ h₂ => .inl ⟨by omega, by omega⟩) h.used_le rfl
      · exact h
    · exact h
  | fillSecond o xs =>
    simp only [FlushRace.step]
    split
    · split
      · exact hkeep (hlive.fill fun i h₁ h₂ => .inr (by omega)) h.used_le rfl
      · exact h
    · exact h
  | commit =>
    simp only [FlushRace.step]
    split
    · rename_i hidle
      obtain ⟨hl, hu, hz⟩ := hlive.commit h.used_le hidle
      exact hkeep hl (by rw [hz]; exact hu) rfl
    · exact h
  | abandon =>
    simp only [FlushRace.step]
    split
    · exact hkeep (hlive.congr (.inl ⟨rfl, rfl, rfl⟩) hlive.prepare hlive.drain rfl rfl rfl rfl rfl) h.used_le rfl
    · exact h
  | drain bytes =>
    simp only [FlushRace.step]
    split
    · exact hkeep (hlive.congr hlive.region hlive.prepare (Nat.le_refl _) rfl rfl rfl rfl rfl) h.used_le rfl
    · exact h
  | drainNext =>
    simp only [FlushRace.step]
    cases hpc : s.drain with
    | idle =>
      simp only [FlushRace.drainNext, hpc]
      exact h
    | haveHead bytes head =>
      have hd := hlive.drain
      rw [DrainOk, hpc] at hd
      simp only [FlushRace.drainNext, hpc]
      exact hkeep (hlive.congr hlive.region hlive.prepare ⟨rfl, hd⟩ rfl rfl rfl rfl rfl) h.used_le rfl
    | haveCursors bytes head tail =>
      refine hkeep (hlive.copy h.used_le hpc) ?_ ?_ <;> simp only [FlushRace.drainNext, hpc]
      exact h.used_le
    | copied bytes tail out =>
      obtain ⟨hl, hu, hz⟩ := hlive.publish hpc
      refine hkeep hl ?_ ?_
      · rw [hz]
        exact hu.trans h.used_le
      · simp only [FlushRace.drainNext, hpc]
  | flush => exact hlive.flush hf ha
  | policy started target prime headroom =>
    refine hkeep (hlive.congr ?_ hlive.prepare hlive.drain rfl rfl rfl rfl rfl) h.used_le rfl
    rcases hlive.region with hr | hr
    · exact .inl hr
    · exact .inr ⟨hr.cursor, hr.stride, hr.first, hr.firstBytes, hr.secondBytes, hr.fit⟩

/-- Between the two stores of a flush. -/
theorem Inv.stepMid (h : s.Inv) (hf : s.flushing = true) (a : FlushAct) (ha : s.Quiescent a) : (s.step a).Inv := by
  have hmid := h.mid hf
  obtain ⟨hz, h₁, h₂⟩ := hmid.region
  cases a with
  | prepare frames =>
    have : s.flushing = false := ha
    rw [hf] at this
    cases this
  | drain bytes =>
    have : s.flushing = false := ha
    rw [hf] at this
    cases this
  | prepared =>
    simp only [FlushRace.step, hmid.prepare]
    exact h
  | fillFirst o xs =>
    simp only [FlushRace.step, hmid.prepare]
    split
    · exact hmid.producer h.used_le hf ⟨rfl, rfl, rfl⟩ (.inl rfl) rfl rfl rfl rfl rfl
    · exact h
  | fillSecond o xs =>
    simp only [FlushRace.step, hmid.prepare]
    split
    · exact hmid.producer h.used_le hf ⟨rfl, rfl, rfl⟩ (.inl rfl) rfl rfl rfl rfl rfl
    · exact h
  | commit =>
    simp only [FlushRace.step, hmid.prepare]
    refine hmid.producer h.used_le hf ?_ (.inr rfl) rfl rfl rfl ?_ rfl
    · simp [FlushRace.commit, Playback.commitPlaybackWrite, hz]
    · simp [FlushRace.commit, regionBytes, h₁, h₂]
  | abandon =>
    simp only [FlushRace.step, hmid.prepare]
    exact hmid.producer h.used_le hf ⟨rfl, rfl, rfl⟩ (.inr rfl) hmid.prepare.symm rfl rfl rfl rfl
  | drainNext =>
    simp only [FlushRace.step, FlushRace.drainNext, hmid.drain]
    exact h
  | flush => exact (hmid.flush hf).1
  | policy started target prime headroom => exact hmid.producer h.used_le hf ⟨rfl, rfl, rfl⟩ (.inl rfl) rfl rfl rfl rfl rfl

theorem Inv.step (h : s.Inv) (a : FlushAct) (ha : s.Quiescent a) : (s.step a).Inv := by
  cases hf : s.flushing with
  | false => exact h.stepLive hf a ha
  | true => exact h.stepMid hf a ha

theorem Inv.start {p : Playback w} {z : RingSize w} (hp : p.ring = Ring.assign z) : Inv { pb := p } := by
  have hused : p.ring.used = 0 := by rw [hp]; simp [Ring.used, Ring.assign]
  refine ⟨?_, fun _ => ⟨.inl ⟨rfl, rfl, rfl⟩, trivial, trivial, Nat.le_refl _, ?_, List.Sublist.refl _⟩, fun hf => ?_⟩
  · show p.ring.used ≤ _
    rw [hused]
    exact Nat.zero_le _
  · show (numbered []).drop 0 = [] ++ unread _
    have : unread ({ pb := p } : FlushRace w) = [] := List.eq_nil_of_length_eq_zero (by rw [unread_length]; exact hused)
    rw [this]
    rfl
  · cases hf

instance (s : FlushRace w) : (a : FlushAct) → Decidable (s.Quiescent a)
  | .flush => inferInstanceAs (Decidable (s.flushing = false → s.drain = .idle ∧ s.prepare = .idle ∧
      s.region.frames = 0 ∧ s.pb.ring.head.toNat ≤ s.pb.ring.size.bytes))
  | .drain _ | .prepare _ => inferInstanceAs (Decidable (s.flushing = false))
  | .prepared | .fillFirst _ _ | .fillSecond _ _ | .commit | .abandon | .drainNext | .policy _ _ _ _ => isTrue trivial

end FlushRace

/-- The ring under flushes that keep to themselves: every delivered byte was committed and none is delivered twice,
the unread bytes never exceed the ring, and once a flush has completed the ring is empty and from there on a FIFO of
the bytes committed afterwards. A flush that starts with the head beyond the first revolution breaks the bound at its
first store. -/
theorem quiescent_flush_keeps_fifo {w : Nat} (p p₀ : Playback w) (streaming : Bool) (c : UserspaceBufferConfig)
    (hcfg : p.configureUserspaceBuffers streaming c = some p₀) :
    (∀ as : List FlushAct, Meets FlushRace.step FlushRace.Quiescent { pb := p₀ } as →
      let s := run FlushRace.step { pb := p₀ } as
      (∀ e ∈ s.delivered, ∃ k, e.2 = some k ∧ s.log[k]? = some e.1) ∧ (s.delivered.map Prod.snd).Nodup ∧
      s.pb.ring.used ≤ s.pb.ring.size.bytes ∧
      (s.flushing = false → s.log.drop s.base = s.since.map Prod.fst ++ s.pb.ring.contents) ∧
      (s.flushing = true → (s.step .flush).pb.ring.contents = [] ∧ (s.step .flush).base = s.log.length)) ∧
    (∀ s : FlushRace w, s.flushing = false → s.pb.ring.size.bytes < s.pb.ring.head.toNat →
      (s.step .flush).pb.ring.size.bytes < (s.step .flush).pb.ring.used) := by
  refine ⟨fun as has => ?_, fun s hidle hhead => ?_⟩
  · intro s
    obtain ⟨z, hring, -⟩ := Playback.configureUserspaceBuffers_ring hcfg
    have h : s.Inv := has.invariant (fun _ a ha hs => hs.step a ha) (.start hring)
    have hdelivered : s.delivered.Sublist (FlushRace.numbered s.log) := by
      cases hf : s.flushing
      · exact (h.live hf).delivered.trans (List.take_sublist _ _)
      · exact (h.mid hf).delivered
    refine ⟨fun e he => FlushRace.mem_numbered (hdelivered.subset he), ?_, h.used_le, fun hf => ?_, fun hf => ?_⟩
    · exact (FlushRace.numbered_nodup s.log).sublist (hdelivered.map Prod.snd)
    · have hfifo := congrArg (List.map Prod.fst) (h.live hf).fifo
      rw [List.map_append, FlushRace.map_unread, List.map_drop, FlushRace.numbered, List.map_fst_zip (by simp)] at hfifo
      exact hfifo
    · obtain ⟨-, hused, hbase⟩ := (h.mid hf).flush hf
      exact ⟨List.eq_nil_of_length_eq_zero (by rw [Ring.contents_length, hused]), hbase⟩
  · have hstep : s.step .flush = { s with pb := s.pb.flushTail, flushing := true } := by
      simp only [FlushRace.step, FlushRace.flush, hidle, Bool.false_eq_true, if_false]
    rw [hstep]
    show s.pb.ring.size.bytes < (s.pb.ring.head - 0#w).toNat
    rw [BitVec.sub_zero]
    exact hhead

/-- A 4096-byte ring of 4-byte frames. -/
def stereoRing : Playback 64 :=
  { ring := Ring.assign .smallest, format := { channels := 2, bytesPerSample := 2 } }

/-- Two frames are committed and one is drained; a drain that runs between the two stores of the flush delivers the
first frame again, and the second store then leaves the head behind the tail. -/
theorem drain_between_flush_stores_replays :
    stereoRing.configureUserspaceBuffers false { ringCapacityBytes := 4096 } = some stereoRing ∧
    let s := run FlushRace.step { pb := stereoRing }
      [.prepare 2, .prepared, .fillFirst 0 [1, 2, 3, 4, 5, 6, 7, 8], .commit,
        .drain 4, .drainNext, .drainNext, .drainNext, .flush, .drain 4, .drainNext, .drainNext, .drainNext, .flush]
    s.delivered = [(1, some 0), (2, some 1), (3, some 2), (4, some 3), (1, some 0), (2, some 1), (3, some 2), (4, some 3)] ∧
    s.flushing = false ∧ s.region.frames = 0 ∧ s.pb.ring.size.bytes < s.pb.ring.used := by
  refine ⟨rfl, ?_, ?_, ?_, ?_⟩ <;> decide

/-- The same commit and drain with the flush to itself: the frame left unread is dropped, and the next block is
delivered from the start of the ring. -/
theorem quiescent_flush_keeps_fifo_dropped :
    let as : List FlushAct :=
      [.prepare 2, .prepared, .fillFirst 0 [1, 2, 3, 4, 5, 6, 7, 8], .commit,
        .drain 4, .drainNext, .drainNext, .drainNext, .flush, .flush, .prepare 1, .prepared, .fillFirst 0 [9, 10, 11, 12],
        .commit, .drain 8, .drainNext, .drainNext, .drainNext]
    let s := run FlushRace.step { pb := stereoRing } as
    s.delivered.map Prod.fst = [1, 2, 3, 4, 9, 10, 11, 12] ∧ (s.delivered.map Prod.snd).Nodup ∧
    s.log.drop s.base = s.since.map Prod.fst ++ s.pb.ring.contents := by
  intro as s
  have hcfg : stereoRing.configureUserspaceBuffers false { ringCapacityBytes := 4096 } = some stereoRing := rfl
  have h := (quiescent_flush_keeps_fifo stereoRing stereoRing false _ hcfg).1 as (by decide)
  exact ⟨by decide, h.2.1, h.2.2.2.1 (by decide)⟩

end UacDriver
