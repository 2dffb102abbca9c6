import Imcodes.Outbox.AckOutbox

/-!
# The file follows the map

What is in the file, being written or waiting to be written is the outbox's
`log`.  The last value that it has of an id is the entry of the map, and loading
it finds that entry or nothing, as long as no older value of the id would be
taken in its place: an entry `Fades` into the next if the next is accepted
whenever it is.

* `sound_step` — every event keeps the log in step with the map, unless a send
  fails for the last time or for an entry that the map no longer has.
* `faithful_of_steady` — in every run in which that is so, a new process finds
  what the old one had.
* `not_faithful` — an entry that has used up its attempts comes back.
-/

namespace Imcodes.Outbox

open LogRecord (since extend replay apply since_concat since_append since_map_entry
  get?_replay_of_fades)
open Machine

/-- What loading accepts. -/
def AckOutboxEntry.isLive (now : Int) (entry : AckOutboxEntry) : Bool :=
  !entry.isExpired now && !entry.isCapped

/-- Whenever the one entry is accepted, so is the other. -/
def AckOutboxEntry.Fades (u v : AckOutboxEntry) : Prop :=
  u.ts ≤ v.ts ∧ (u.isCapped = false → v.isCapped = false)

instance (u v : AckOutboxEntry) : Decidable (u.Fades v) :=
  inferInstanceAs (Decidable (_ ∧ _))

namespace AckOutboxEntry

variable {u v w : AckOutboxEntry}

theorem Fades.refl (u : AckOutboxEntry) : u.Fades u := ⟨le_rfl, id⟩

theorem Fades.trans (h : u.Fades v) (h' : v.Fades w) : u.Fades w :=
  ⟨h.1.trans h'.1, fun hu => h'.2 (h.2 hu)⟩

theorem Fades.isLive {now : Int} (h : u.Fades v) (hu : u.isLive now) : v.isLive now := by
  simp only [AckOutboxEntry.isLive, isExpired, Bool.and_eq_true, Bool.not_eq_true',
    decide_eq_false_iff_not, gt_iff_lt, not_lt] at hu ⊢
  have := h.1
  exact ⟨by omega, h.2 hu.2⟩

end AckOutboxEntry

/-- Loading is a replay that accepts what is live. -/
theorem loadFromDisk_eq_replay (now : Int) (file : List DiskRecord) :
    loadFromDisk now (file.map some) = replay (·.commandId) (·.isLive now) file := by
  have hline : (fun live record => readLine now live (some record)) =
      apply (·.commandId) (·.isLive now) := by
    funext live record
    cases record with
    | entry entry =>
      simp only [readLine, apply, AckOutboxEntry.isLive]
      by_cases he : entry.isExpired now <;> by_cases hc : entry.isCapped <;> simp [he, hc]
    | tombstone commandId => rfl
  rw [loadFromDisk, replay, List.foldl_map, hline]

namespace AckOutbox

variable {o : AckOutbox} {k : String}

/-- What the file will hold, once everything is written. -/
def log (o : AckOutbox) : List DiskRecord :=
  o.file ++ o.writing.toList ++ o.queue.map (·.map o.heap)

/-- The log has the entry of the map last, and nothing better before it. -/
structure SoundAt (k : String) (o : AckOutbox) : Prop where
  kept : (since (·.commandId) k o.log).getLast? = o.lookup k
  fades : ∀ v, o.lookup k = some v → ∀ u ∈ since (·.commandId) k o.log, u.Fades v

/-- The references are to objects with the right id. -/
structure WellFormed (o : AckOutbox) : Prop where
  refs : ∀ k ref, o.entries.get? k = some ref → ref < o.nextRef ∧ (o.heap ref).commandId = k
  queued : ∀ ref, .entry ref ∈ o.queue → ref < o.nextRef

theorem SoundAt.of_none (hk : o.lookup k = none) (hsince : since (·.commandId) k o.log = []) :
    o.SoundAt k :=
  ⟨by rw [hsince, hk]; rfl, fun v hv => by rw [hk] at hv; cases hv⟩

/-- An id that is not in the map has left nothing in the log. -/
theorem SoundAt.since_eq_nil (h : o.SoundAt k) (hk : o.lookup k = none) :
    since (·.commandId) k o.log = [] :=
  List.getLast?_eq_none_iff.1 (h.kept.trans hk)

/-! ## Appends -/

theorem log_appendRecord (record : LogRecord Ref String) :
    (o.appendRecord record).2.log = o.log ++ [record.map o.heap] := by
  simp [appendRecord, log]

theorem since_appendRecord (record : LogRecord Ref String) :
    since (·.commandId) k (o.appendRecord record).2.log =
      extend (·.commandId) k (since (·.commandId) k o.log) (record.map o.heap) := by
  rw [log_appendRecord, since_concat]

theorem log_startWriting : o.startWriting.log = o.log := by
  unfold startWriting
  split
  · rename_i hwriting hqueue
    simp [log, hwriting, hqueue]
  · rfl

theorem log_finishWriting : o.finishWriting.log = o.log := by
  unfold finishWriting
  split
  · rename_i hwriting
    simp [log, hwriting]
  · rfl

/-- An id goes from the map, and its tombstone into the log. -/
theorem lookup_bury (id : String) :
    (o.bury id).2.lookup k = if k = id then none else o.lookup k := by
  simp only [bury, lookup, appendRecord, OrderedMap.get?_delete]
  split <;> rfl

theorem since_bury (id : String) : since (·.commandId) k (o.bury id).2.log =
    if k = id then [] else since (·.commandId) k o.log := by
  rw [bury, since_appendRecord]
  simp only [LogRecord.map, extend, eq_comm (a := k)]
  rfl

theorem wellFormed_bury (h : o.WellFormed) (id : String) : (o.bury id).2.WellFormed := by
  constructor
  · intro k ref hk
    simp only [bury, appendRecord, OrderedMap.get?_delete] at hk
    split at hk
    · cases hk
    · exact h.refs k ref hk
  · intro ref href
    exact h.queued ref (by simpa [bury, appendRecord] using href)

theorem SoundAt.bury {id : String} (h : k ≠ id → o.SoundAt k) : (o.bury id).2.SoundAt k := by
  by_cases hk : k = id
  · exact .of_none (by rw [lookup_bury, if_pos hk]) (by rw [since_bury, if_pos hk])
  · constructor <;> rw [since_bury, lookup_bury, if_neg hk, if_neg hk]
    · exact (h hk).kept
    · exact (h hk).fades

/-! ## Attempts -/

theorem commandId_countAttempt (ref ref' : Ref) :
    ((o.countAttempt ref).heap ref').commandId = (o.heap ref').commandId := by
  by_cases h : ref' = ref
  · subst h
    simp [countAttempt]
  · simp [countAttempt, Function.update_of_ne h]

theorem heap_countAttempt_of_ne {ref ref' : Ref} (h : ref' ≠ ref) :
    (o.countAttempt ref).heap ref' = o.heap ref' := by
  simp [countAttempt, Function.update_of_ne h]

/-- What becomes of the values of an id when an attempt of one entry is counted: its
records that are not text yet have it. -/
structure Recounted (k : String) (ref : Ref) (o : AckOutbox) (vs vs' : List AckOutboxEntry) :
    Prop where
  other : (o.heap ref).commandId ≠ k → vs' = vs
  nil : vs = [] → vs' = []
  mem : ∀ u ∈ vs', u ∈ vs ∨ u = (o.countAttempt ref).heap ref

theorem Recounted.refl (vs : List AckOutboxEntry) {ref : Ref} : Recounted k ref o vs vs :=
  ⟨fun _ => rfl, id, fun _ hu => Or.inl hu⟩

theorem Recounted.extend {ref : Ref} {vs vs' : List AckOutboxEntry} (h : Recounted k ref o vs vs')
    (record : LogRecord Ref String) :
    Recounted k ref o (extend (·.commandId) k vs (record.map o.heap))
      (extend (·.commandId) k vs' (record.map (o.countAttempt ref).heap)) := by
  cases record with
  | tombstone id =>
    simp only [LogRecord.map, LogRecord.extend]
    split
    · exact .refl []
    · exact h
  | entry ref' =>
    simp only [LogRecord.map, LogRecord.extend, commandId_countAttempt]
    split
    · rename_i hk
      have hvalue : (o.countAttempt ref).heap ref' = o.heap ref' ∨ ref' = ref :=
        (em (ref' = ref)).symm.imp_left heap_countAttempt_of_ne
      refine ⟨fun hne => ?_, fun hnil => by simp at hnil, fun u hu => ?_⟩
      · rcases hvalue with hsame | rfl
        · rw [h.other hne, hsame]
        · exact absurd hk hne
      · rcases List.mem_append.1 hu with hu | hu
        · exact (h.mem u hu).imp_left (List.mem_append_left _)
        · rw [List.mem_singleton.1 hu]
          rcases hvalue with hsame | rfl
          · exact Or.inl (by rw [hsame]; simp)
          · exact Or.inr rfl
    · exact h

theorem recounted_since (ref : Ref) (k : String) (o : AckOutbox) :
    Recounted k ref o (since (·.commandId) k o.log)
      (since (·.commandId) k (o.countAttempt ref).log) := by
  have hsplit (heap : Ref → AckOutboxEntry) :
      since (·.commandId) k (o.file ++ o.writing.toList ++ o.queue.map (·.map heap)) =
        o.queue.foldl (fun vs record => LogRecord.extend (·.commandId) k vs (record.map heap))
          (since (·.commandId) k (o.file ++ o.writing.toList)) := by
    rw [since_append (o.file ++ o.writing.toList), List.foldl_map]
  have hlog : (o.countAttempt ref).log =
      o.file ++ o.writing.toList ++ o.queue.map (·.map (o.countAttempt ref).heap) := rfl
  rw [hlog, log, hsplit, hsplit]
  generalize since (·.commandId) k (o.file ++ o.writing.toList) = vs
  suffices h : ∀ vs', Recounted k ref o vs vs' → Recounted k ref o
      (o.queue.foldl (fun vs record => LogRecord.extend (·.commandId) k vs (record.map o.heap)) vs)
      (o.queue.foldl (fun vs record => LogRecord.extend (·.commandId) k vs
        (record.map (o.countAttempt ref).heap)) vs') from h vs (.refl vs)
  generalize o.queue = queue
  induction queue generalizing vs with
  | nil => exact fun vs' h => h
  | cons record queue ih => exact fun vs' h => ih _ _ (h.extend record)

theorem wellFormed_countAttempt (h : o.WellFormed) (ref : Ref) : (o.countAttempt ref).WellFormed :=
  ⟨fun k ref' hk => by rw [commandId_countAttempt]; exact h.refs k ref' hk, h.queued⟩

theorem SoundAt.countAttempt (hw : o.WellFormed) (h : o.SoundAt k) {ref : Ref}
    (hk : (o.heap ref).commandId ≠ k) : (o.countAttempt ref).SoundAt k := by
  have hlookup : (o.countAttempt ref).lookup k = o.lookup k := by
    refine Option.map_congr fun ref' href' => heap_countAttempt_of_ne ?_
    rintro rfl
    exact hk (hw.refs k ref' href').2
  have hsince := (recounted_since ref k o).other hk
  constructor <;> rw [hsince, hlookup]
  · exact h.kept
  · exact h.fades

/-! ## Events -/

/-- The log is in step with the map. -/
structure Sound (o : AckOutbox) : Prop where
  wellFormed : o.WellFormed
  soundAt : ∀ k, o.SoundAt k

theorem Sound.flushes (h : o.Sound) (flushes : List Flush) : { o with flushes }.Sound :=
  ⟨⟨h.wellFormed.refs, h.wellFormed.queued⟩, fun k => ⟨(h.soundAt k).kept, (h.soundAt k).fades⟩⟩

theorem Sound.collections (h : o.Sound) (collections : List Collection) :
    { o with collections }.Sound :=
  ⟨⟨h.wellFormed.refs, h.wellFormed.queued⟩, fun k => ⟨(h.soundAt k).kept, (h.soundAt k).fades⟩⟩

theorem Sound.startWriting (h : o.Sound) : o.startWriting.Sound := by
  have hsame : o.startWriting.entries = o.entries ∧ o.startWriting.heap = o.heap ∧
      o.startWriting.nextRef = o.nextRef ∧ o.startWriting.queue ⊆ o.queue := by
    unfold AckOutbox.startWriting
    split
    · rename_i hqueue
      exact ⟨rfl, rfl, rfl, by rw [hqueue]; exact List.subset_cons_self _ _⟩
    · exact ⟨rfl, rfl, rfl, List.Subset.refl _⟩
  obtain ⟨hentries, hheap, hnext, hqueue⟩ := hsame
  refine ⟨⟨?_, fun ref href => ?_⟩, fun k => ⟨?_, ?_⟩⟩
  · rw [hentries, hheap, hnext]
    exact h.wellFormed.refs
  · rw [hnext]
    exact h.wellFormed.queued ref (hqueue href)
  · rw [log_startWriting, lookup, hentries, hheap]
    exact (h.soundAt k).kept
  · rw [log_startWriting, lookup, hentries, hheap]
    exact (h.soundAt k).fades

theorem Sound.finishWriting (h : o.Sound) : o.finishWriting.Sound := by
  have hsame : o.finishWriting.entries = o.entries ∧ o.finishWriting.heap = o.heap ∧
      o.finishWriting.nextRef = o.nextRef ∧ o.finishWriting.queue = o.queue := by
    unfold AckOutbox.finishWriting
    split <;> exact ⟨rfl, rfl, rfl, rfl⟩
  obtain ⟨hentries, hheap, hnext, hqueue⟩ := hsame
  refine ⟨⟨?_, ?_⟩, fun k => ⟨?_, ?_⟩⟩
  · rw [hentries, hheap, hnext]
    exact h.wellFormed.refs
  · rw [hqueue, hnext]
    exact h.wellFormed.queued
  · rw [log_finishWriting, lookup, hentries, hheap]
    exact (h.soundAt k).kept
  · rw [log_finishWriting, lookup, hentries, hheap]
    exact (h.soundAt k).fades

theorem Sound.bury (h : o.Sound) (id : String) : (o.bury id).2.Sound :=
  ⟨wellFormed_bury h.wellFormed id, fun k => .bury fun _ => h.soundAt k⟩

theorem Sound.collectNext (h : o.Sound) (ids : List String) : (o.collectNext ids).Sound := by
  cases ids with
  | nil => exact h
  | cons id remaining => exact (h.bury id).collections _

/-- An id is acknowledged, and its entry may have been counted before. -/
theorem sound_markAcked (hw : o.WellFormed) {id : String} (h : ∀ k, k ≠ id → o.SoundAt k)
    (hnone : o.lookup id = none → o.SoundAt id) : (o.markAcked id).2.Sound := by
  unfold markAcked
  cases hid : o.entries.get? id with
  | none =>
    refine ⟨hw, fun k => ?_⟩
    by_cases hk : k = id
    · subst hk
      exact hnone (by rw [lookup, hid]; rfl)
    · exact h k hk
  | some ref => exact ⟨wellFormed_bury hw id, fun k => .bury (h k)⟩

theorem Sound.markAcked (h : o.Sound) (id : String) : (o.markAcked id).2.Sound :=
  sound_markAcked h.wellFormed (fun k _ => h.soundAt k) fun _ => h.soundAt id

theorem Sound.sent (h : o.Sound) (ref : Ref) :
    ((o.countAttempt ref).markAcked (o.heap ref).commandId).2.Sound := by
  refine sound_markAcked (wellFormed_countAttempt h.wellFormed ref)
    (fun k hk => (h.soundAt k).countAttempt h.wellFormed (Ne.symm hk)) fun hnone => ?_
  have hnone' : o.lookup (o.heap ref).commandId = none := by
    rw [lookup, Option.map_eq_none_iff] at hnone ⊢
    exact hnone
  exact .of_none hnone ((recounted_since ref _ o).nil ((h.soundAt _).since_eq_nil hnone'))

/-- A send fails for an entry of the map, and not for the last time. -/
theorem Sound.failed (h : o.Sound) {ref : Ref}
    (hcurrent : o.entries.get? (o.heap ref).commandId = some ref)
    (hnext : (o.heap ref).attempts + 1 < ackOutboxMaxAttempts) :
    ((o.countAttempt ref).appendRecord (.entry ref)).2.Sound := by
  have hw := wellFormed_countAttempt h.wellFormed ref
  refine ⟨⟨hw.refs, fun ref' href' => ?_⟩, fun k => ?_⟩
  · have hmem : .entry ref' ∈ o.queue ++ [LogRecord.entry ref] := href'
    simp only [List.mem_append, List.mem_singleton, LogRecord.entry.injEq] at hmem
    rcases hmem with hmem | rfl
    · exact h.wellFormed.queued ref' hmem
    · exact (h.wellFormed.refs _ ref' hcurrent).1
  · have hrecord : (LogRecord.entry ref : LogRecord Ref String).map (o.countAttempt ref).heap =
        .entry ((o.countAttempt ref).heap ref) := rfl
    have hsince := since_appendRecord (o := o.countAttempt ref) (k := k) (.entry ref)
    rw [hrecord] at hsince
    simp only [extend, commandId_countAttempt] at hsince
    by_cases hk : (o.heap ref).commandId = k
    · rw [if_pos hk] at hsince
      subst hk
      have hlookup : ((o.countAttempt ref).appendRecord (.entry ref)).2.lookup
          (o.heap ref).commandId = some ((o.countAttempt ref).heap ref) :=
        congrArg (Option.map (o.countAttempt ref).heap) hcurrent
      constructor
      · rw [hsince, hlookup, List.getLast?_concat]
      · intro v hv u hu
        obtain rfl : _ = v := Option.some.inj (hlookup.symm.trans hv)
        have hfades : (o.heap ref).Fades ((o.countAttempt ref).heap ref) := by
          simp [countAttempt, AckOutboxEntry.Fades, AckOutboxEntry.isCapped, hnext]
        rw [hsince] at hu
        rcases List.mem_append.1 hu with hu | hu
        · rcases (recounted_since ref _ o).mem u hu with hu | rfl
          · have hold : o.lookup (o.heap ref).commandId = some (o.heap ref) :=
              congrArg (Option.map o.heap) hcurrent
            exact ((h.soundAt _).fades _ hold u hu).trans hfades
          · exact .refl _
        · rw [List.mem_singleton.1 hu]
          exact .refl _
    · rw [if_neg hk] at hsince
      have hat := (h.soundAt k).countAttempt h.wellFormed hk
      constructor <;> rw [hsince]
      · exact hat.kept
      · exact hat.fades

/-- An entry is put into the map; the one that it replaces must fade into it. -/
theorem Sound.enqueue (h : o.Sound) {entry : AckOutboxInput} {attempts : Option Nat}
    (hfades : ∀ u, o.lookup entry.commandId = some u → u.Fades (entry.full attempts)) :
    (o.enqueue entry attempts).Sound := by
  set full := entry.full attempts with hfull
  set heap := Function.update o.heap o.nextRef full with hheap
  have hold {ref : Ref} (href : ref < o.nextRef) : heap ref = o.heap ref :=
    Function.update_of_ne (Nat.ne_of_lt href) ..
  have hnew : heap o.nextRef = full := Function.update_self ..
  have hentries : (o.enqueue entry attempts).entries = o.entries.set entry.commandId o.nextRef := rfl
  have hlookup (k : String) : (o.enqueue entry attempts).lookup k =
      if k = entry.commandId then some full else o.lookup k := by
    rw [lookup, hentries, OrderedMap.get?_set]
    split
    · exact congrArg some hnew
    · exact Option.map_congr fun ref href => hold (h.wellFormed.refs k ref href).1
  have hlog : (o.enqueue entry attempts).log = o.log ++ [.entry full] := by
    rw [AckOutbox.enqueue, log_appendRecord, LogRecord.map]
    refine congrArg₂ (· ++ ·) (congrArg (_ ++ ·) (List.map_congr_left fun record hrecord => ?_))
      (congrArg (fun e => [LogRecord.entry e]) hnew)
    cases record with
    | entry ref => exact congrArg LogRecord.entry (hold (h.wellFormed.queued ref hrecord))
    | tombstone id => rfl
  refine ⟨⟨fun k ref hk => ?_, fun ref href => ?_⟩, fun k => ?_⟩
  · rw [hentries, OrderedMap.get?_set] at hk
    split at hk
    · rename_i hkey
      cases hk
      exact ⟨Nat.lt_succ_self _, (congrArg (·.commandId) hnew).trans hkey.symm⟩
    · obtain ⟨hlt, hid⟩ := h.wellFormed.refs k ref hk
      exact ⟨Nat.lt_succ_of_lt hlt, (congrArg (·.commandId) (hold hlt)).trans hid⟩
  · have hmem : .entry ref ∈ o.queue ++ [LogRecord.entry o.nextRef] := href
    simp only [List.mem_append, List.mem_singleton, LogRecord.entry.injEq] at hmem
    rcases hmem with hmem | rfl
    · exact Nat.lt_succ_of_lt (h.wellFormed.queued ref hmem)
    · exact Nat.lt_succ_self _
  · have hsince : since (·.commandId) k (o.enqueue entry attempts).log =
        if entry.commandId = k then since (·.commandId) k o.log ++ [full]
        else since (·.commandId) k o.log := by
      rw [hlog, since_concat]
      rfl
    by_cases hk : k = entry.commandId
    · subst hk
      rw [if_pos rfl] at hsince
      constructor
      · rw [hsince, hlookup, if_pos rfl, List.getLast?_concat]
      · intro v hv u hu
        rw [hlookup, if_pos rfl] at hv
        obtain rfl : full = v := Option.some.inj hv
        rw [hsince] at hu
        rcases List.mem_append.1 hu with hu | hu
        · cases hcurrent : o.lookup entry.commandId with
          | none =>
            rw [(h.soundAt _).since_eq_nil hcurrent] at hu
            cases hu
          | some w => exact ((h.soundAt _).fades w hcurrent u hu).trans (hfades w hcurrent)
        · rw [List.mem_singleton.1 hu]
          exact .refl _
    · rw [if_neg (Ne.symm hk)] at hsince
      constructor <;> rw [hsince, hlookup, if_neg hk]
      · exact (h.soundAt k).kept
      · exact (h.soundAt k).fades

/-! ## A new process -/

/-- What is loaded is under its own id. -/
theorem commandId_of_mem_loadFromDisk {now : Int} {lines : List (Option DiskRecord)}
    {p : String × AckOutboxEntry} (hp : p ∈ (loadFromDisk now lines).toList) :
    p.2.commandId = p.1 := by
  induction lines using List.reverseRecOn with
  | nil => cases hp
  | append_singleton lines line ih =>
    rw [loadFromDisk, List.foldl_append, List.foldl_cons, List.foldl_nil, ← loadFromDisk] at hp
    unfold readLine at hp
    split at hp
    · exact ih hp
    · split at hp
      · exact ih hp
      · split at hp
        · exact ih hp
        · rcases OrderedMap.mem_set.1 hp with rfl | ⟨hp, -⟩
          · rfl
          · exact ih hp
    · exact ih (OrderedMap.mem_delete.1 hp).1

/-- The objects of a new process. -/
theorem heap_init {now : Int} {lines : List (Option DiskRecord)} {ref : Ref}
    {p : String × AckOutboxEntry} (hp : (loadFromDisk now lines).toList[ref]? = some p) :
    (init now lines).heap ref = p.2 := by
  change (loadFromDisk now lines).values.getD ref default = p.2
  rw [List.getD_eq_getElem?_getD, OrderedMap.values, List.getElem?_map, hp]
  rfl

theorem entries_init {now : Int} {lines : List (Option DiskRecord)} {ref : Ref} :
    (init now lines).entries.get? k = some ref ↔
      ∃ v, (loadFromDisk now lines).toList[ref]? = some (k, v) := by
  rw [OrderedMap.get?_eq_some]
  change (k, ref) ∈ (loadFromDisk now lines).toList.zipIdx.map (fun p => (p.1.1, p.2)) ↔ _
  rw [List.mem_map]
  constructor
  · rintro ⟨⟨p, i⟩, hp, hpair⟩
    cases hpair
    exact ⟨p.2, List.mk_mem_zipIdx_iff_getElem?.1 hp⟩
  · rintro ⟨v, hget⟩
    exact ⟨((k, v), ref), List.mk_mem_zipIdx_iff_getElem?.2 hget, rfl⟩

theorem lookup_init (now : Int) (lines : List (Option DiskRecord)) :
    (init now lines).lookup k = (loadFromDisk now lines).get? k := by
  refine Option.ext fun v => ?_
  rw [lookup, Option.map_eq_some_iff, OrderedMap.get?_eq_some]
  constructor
  · rintro ⟨ref, href, rfl⟩
    obtain ⟨v, hget⟩ := entries_init.1 href
    rw [heap_init hget]
    exact List.mem_of_getElem? hget
  · intro hv
    obtain ⟨ref, hget⟩ := List.mem_iff_getElem?.1 hv
    exact ⟨ref, entries_init.2 ⟨v, hget⟩, heap_init hget⟩

theorem sound_init (now : Int) (lines : List (Option DiskRecord)) : (init now lines).Sound := by
  have hsince (k : String) : since (·.commandId) k (init now lines).log =
      (loadFromDisk now lines).values.filter fun v => v.commandId = k := by
    have hlog : (init now lines).log = (loadFromDisk now lines).values.map .entry := by
      simp [log, init]
    rw [hlog, since_map_entry]
  -- the file has at most one entry of an id
  have hunique {k : String} {u : AckOutboxEntry}
      (hu : u ∈ since (·.commandId) k (init now lines).log) :
      (init now lines).lookup k = some u := by
    rw [hsince, List.mem_filter] at hu
    obtain ⟨p, hp, rfl⟩ := List.mem_map.1 hu.1
    have hk : p.1 = k := (commandId_of_mem_loadFromDisk hp).symm.trans (of_decide_eq_true hu.2)
    rw [lookup_init, OrderedMap.get?_eq_some, ← hk]
    exact hp
  refine ⟨⟨fun k ref hk => ?_, fun ref href => by cases href⟩, fun k => ⟨?_, fun v hv u hu => ?_⟩⟩
  · obtain ⟨v, hget⟩ := entries_init.1 hk
    rw [heap_init hget]
    refine ⟨?_, commandId_of_mem_loadFromDisk (List.mem_of_getElem? hget)⟩
    change ref < (loadFromDisk now lines).values.length
    rw [OrderedMap.values, List.length_map]
    exact (List.getElem?_eq_some_iff.1 hget).1
  · cases hlast : (since (·.commandId) k (init now lines).log).getLast? with
    | some u => exact (hunique (List.mem_of_getLast? hlast)).symm
    | none =>
      rw [List.getLast?_eq_none_iff, hsince, List.filter_eq_nil_iff] at hlast
      rw [lookup_init]
      refine (Option.eq_none_iff_forall_ne_some.2 fun v hv => ?_).symm
      have hmem := OrderedMap.get?_eq_some.1 hv
      exact hlast v (List.mem_map_of_mem hmem)
        (decide_eq_true (commandId_of_mem_loadFromDisk hmem))
  · rw [hunique hu] at hv
    cases hv
    exact .refl _

/-! ## Runs -/

/-- A send of the next entry does not fail when the map has the entry no more, nor
for the last time. -/
def SendsSteadily (o : AckOutbox) (outcome : SendOutcome) (remaining : List Ref) : Prop :=
  outcome = .notSent ∨ outcome = .threw → ∀ ref ∈ remaining.head?,
    (o.heap ref).isCapped = false →
      o.entries.get? (o.heap ref).commandId = some ref ∧
        (o.heap ref).attempts + 1 < ackOutboxMaxAttempts

instance (outcome : SendOutcome) (remaining : List Ref) :
    Decidable (o.SendsSteadily outcome remaining) := by
  unfold SendsSteadily
  infer_instance

/-- An event that leaves no better value of an id behind than the map has. -/
def Steady (o : AckOutbox) : Event → Prop
  | .enqueue entry attempts =>
      ∀ u ∈ o.lookup entry.commandId, u.Fades (entry.full attempts)
  | .flushOnReconnect outcome => o.SendsSteadily outcome o.ordered
  | .resumeFlush i outcome =>
      ∀ flush ∈ o.readyFlush i, o.SendsSteadily outcome flush.remaining
  | _ => True

instance : ∀ e, Decidable (o.Steady e)
  | .enqueue entry attempts =>
      inferInstanceAs (Decidable (∀ u ∈ o.lookup entry.commandId, u.Fades (entry.full attempts)))
  | .flushOnReconnect outcome => inferInstanceAs (Decidable (o.SendsSteadily outcome o.ordered))
  | .resumeFlush i outcome => inferInstanceAs
      (Decidable (∀ flush ∈ o.readyFlush i, o.SendsSteadily outcome flush.remaining))
  | .markAcked _ | .gc _ | .resumeGc _ | .startWriting | .finishWriting | .restart _ =>
      .isTrue trivial

theorem Sound.flushNext (h : o.Sound) {outcome : SendOutcome} {remaining : List Ref}
    (hsteady : o.SendsSteadily outcome remaining) : (o.flushNext outcome remaining).Sound := by
  cases remaining with
  | nil => exact h
  | cons ref remaining =>
    dsimp only [AckOutbox.flushNext]
    by_cases hcapped : (o.heap ref).isCapped
    · rw [if_pos hcapped]
      exact (h.markAcked _).flushes _
    · rw [if_neg hcapped]
      cases outcome with
      | disconnected => exact h
      | sent => exact (h.sent ref).flushes _
      | notSent | threw =>
        obtain ⟨hcurrent, hnext⟩ := hsteady (by simp) ref rfl (by simpa using hcapped)
        exact h.failed hcurrent hnext

/-- Every event keeps the log in step with the map. -/
theorem sound_step (h : o.Sound) (e : Event) (hsteady : o.Steady e) : (step o e).Sound := by
  cases e with
  | enqueue entry attempts => exact h.enqueue hsteady
  | markAcked commandId => exact h.markAcked commandId
  | flushOnReconnect outcome => exact h.flushNext hsteady
  | resumeFlush i outcome =>
    simp only [step, resumeFlush]
    cases hready : o.readyFlush i with
    | none => exact h
    | some flush => exact (h.flushes _).flushNext (hsteady flush hready)
  | gc now => exact h.collectNext _
  | resumeGc i =>
    simp only [step, resumeGc]
    split
    · exact h
    · exact (h.collections _).collectNext _
  | startWriting => exact h.startWriting
  | finishWriting => exact h.finishWriting
  | restart now => exact sound_init now _

/-- Nothing waits to be written: a new process then has, under every id, the entry
of the old one, unless it is expired or has used up its attempts. -/
def Faithful (o : AckOutbox) : Prop :=
  o.queue = [] → o.writing = none → ∀ now commandId,
    (init now (o.file.map some)).lookup commandId = (o.lookup commandId).filter (·.isLive now)

theorem Sound.faithful (h : o.Sound) : o.Faithful := by
  intro hqueue hwriting now commandId
  have hlog : o.log = o.file := by simp [log, hqueue, hwriting]
  obtain ⟨hkept, hfades⟩ := h.soundAt commandId
  rw [hlog] at hkept hfades
  rw [lookup_init, loadFromDisk_eq_replay]
  exact get?_replay_of_fades hkept fun v hv u hu => (hfades v hv u hu).isLive

/-- **The file is a faithful log**, in every run of steady events, over any number of
processes. -/
theorem faithful_of_steady (now : Int) (lines : List (Option DiskRecord)) (events : List Event)
    (hsteady : Along step Steady events (init now lines)) :
    (run step events (init now lines)).Faithful :=
  (run_invariant Sound (fun _ e h hs => sound_step h e hs) (sound_init now lines) hsteady).faithful

/-! ### A last attempt that fails -/

def exampleInput : AckOutboxInput :=
  { commandId := "c1", sessionName := "deck", status := "accepted", ts := 1000 }

/-- The pending append is written. -/
def writeOut : List Event := [.startWriting, .finishWriting]

/-- An entry is queued, tried twice, sent, and queued again. -/
def steadyRun : List Event :=
  [.enqueue exampleInput none] ++ writeOut ++ [.flushOnReconnect .notSent] ++ writeOut ++
    [.restart 2000, .flushOnReconnect .threw] ++ writeOut ++ [.flushOnReconnect .sent] ++ writeOut ++
    [.enqueue exampleInput none, .gc 3000] ++ writeOut

theorem faithful_of_steady_steadyRun : (run step steadyRun (init 0 [])).Faithful :=
  faithful_of_steady 0 [] steadyRun (by decide)

/-- **An entry that has used up its attempts comes back**: loading skips its last
record and takes the one before. -/
theorem not_faithful :
    ¬ ∀ (now : Int) (lines : List (Option DiskRecord)) (events : List Event),
      (run step events (init now lines)).Faithful := by
  intro h
  have hlast := h 0 [] ([.enqueue exampleInput (some 9)] ++ writeOut ++
    [.flushOnReconnect .notSent] ++ writeOut) rfl rfl 2000 "c1"
  revert hlast
  decide

end AckOutbox

end Imcodes.Outbox
