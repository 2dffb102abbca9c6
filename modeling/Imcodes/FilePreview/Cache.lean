import Imcodes.Collections.OrderedMap
import Imcodes.FilePreview.Admission
import Imcodes.Paths.Posix

/-!
# The snapshots of previewed files

`PreviewReadCacheFacade` keeps the last snapshot of a file for a while.  Every path has a
*generation*, which goes up when the path is invalidated, and a snapshot counts for the generation
in which its read was dispatched.

* `getCached_spec`, `writeSnapshot_spec`, `invalidatePath_spec` — what each operation does.
* `makeSnapshotKey_inj` — a key tells the path and the generation.
-/

namespace Imcodes.FilePreview

open Posix

/-- A number as it is written in a string: without a colon. -/
structure Numeral where
  text : String
  colon : ':' ∉ text.toList

instance : DecidableEq Numeral := fun m n =>
  decidable_of_iff (m.text = n.text) (by cases m; cases n; simp)

/-- `fileSignatureForStat` -/
def fileSignatureForStat (mtimeMs size : Numeral) : String :=
  mtimeMs.text ++ ":" ++ size.text

/-- `PreviewReadSnapshotPayload` -/
inductive PreviewReadSnapshotPayload
  | text (content : String)
  | base64 (content mimeType : String)
  | stream (mimeType : String)
  | unavailable (error : String)
deriving DecidableEq

/-- `PreviewReadSnapshotSuccess`, with the number of the step in which its read was dispatched -/
structure PreviewReadSnapshotSuccess where
  realPath : String
  startSignature : String
  endSignature : String
  fileName : String
  payload : PreviewReadSnapshotPayload
  dispatchedAt : ℕ
deriving DecidableEq

/-- `PreviewReadCachedSnapshot`; its path is the key under which it is kept. -/
structure PreviewReadCachedSnapshot where
  signature : String
  generation : ℕ
  expiresAt : ℚ
  bytes : ℕ
  value : PreviewReadSnapshotSuccess

/-- `PreviewReadCacheFacade`; `cwd` is the working directory that `resolve` takes. -/
structure PreviewReadCacheFacade where
  cwd : String
  ttlMs : ℤ
  maxEntries : ℤ
  maxBytes : ℤ
  maxEntryBytes : ℤ
  fsReadCache : OrderedMap String PreviewReadCachedSnapshot := .empty
  fsReadGenerations : OrderedMap String ℕ := .empty
  fsReadCacheBytes : ℕ := 0

/-- `PreviewReadCacheFacadeOptions`, of finite numbers -/
structure PreviewReadCacheFacadeOptions where
  ttlMs : Option ℚ := none
  maxEntries : Option ℚ := none
  maxBytes : Option ℚ := none
  maxEntryBytes : Option ℚ := none

/-- The cache that the constructor makes. -/
def PreviewReadCacheFacade.new (cwd : String) (options : PreviewReadCacheFacadeOptions) :
    PreviewReadCacheFacade where
  cwd
  ttlMs := max 0 (trunc (options.ttlMs.getD 5000))
  maxEntries := max 0 (trunc (options.maxEntries.getD 64))
  maxBytes := max 0 (trunc (options.maxBytes.getD (16 * 1024 * 1024)))
  maxEntryBytes := max 0 (trunc (options.maxEntryBytes.getD (2 * 1024 * 1024)))

/-- `estimateSnapshotBytes` -/
def estimateSnapshotBytes (value : PreviewReadSnapshotSuccess) : ℕ :=
  let baseBytes := value.realPath.utf8ByteSize + value.fileName.utf8ByteSize + 256
  match value.payload with
  | .text content => baseBytes + content.utf8ByteSize
  | .base64 content _ => baseBytes + content.utf8ByteSize
  | .stream _ => baseBytes
  | .unavailable _ => baseBytes

namespace PreviewReadCacheFacade

/-- `normalizePath` -/
def normalizePath (cache : PreviewReadCacheFacade) (value : String) : String :=
  resolve cache.cwd value

/-- `getGeneration` -/
def getGeneration (cache : PreviewReadCacheFacade) (realPath : String) : ℕ :=
  (cache.fsReadGenerations.get? (cache.normalizePath realPath)).getD 0

/-- `bumpGeneration` -/
def bumpGeneration (cache : PreviewReadCacheFacade) (realPath : String) :
    PreviewReadCacheFacade :=
  let normalized := cache.normalizePath realPath
  let next := cache.getGeneration normalized + 1
  { cache with fsReadGenerations := cache.fsReadGenerations.set normalized next }

/-- `makeSnapshotKey` -/
def makeSnapshotKey (cache : PreviewReadCacheFacade) (realPath signature : String)
    (resourceGeneration : ℕ) : String :=
  cache.normalizePath realPath ++ "::" ++ signature ++ "::" ++ toString resourceGeneration

/-- `deleteCached` -/
def deleteCached (cache : PreviewReadCacheFacade) (normalizedPath : String) :
    PreviewReadCacheFacade :=
  match cache.fsReadCache.get? normalizedPath with
  | none => cache
  | some cached =>
    { cache with
      fsReadCache := cache.fsReadCache.delete normalizedPath
      fsReadCacheBytes := cache.fsReadCacheBytes - cached.bytes }

/-- `sweepExpired` -/
def sweepExpired (cache : PreviewReadCacheFacade) (now : ℚ) : PreviewReadCacheFacade :=
  cache.fsReadCache.toList.foldl
    (fun cache (key, cached) => if cached.expiresAt ≤ now then cache.deleteCached key else cache)
    cache

/-- `getCached` -/
def getCached (cache : PreviewReadCacheFacade) (now : ℚ) (realPath signature : String) :
    PreviewReadCacheFacade × Option PreviewReadSnapshotSuccess :=
  let cache := cache.sweepExpired now
  let normalized := cache.normalizePath realPath
  match cache.fsReadCache.get? normalized with
  | none => (cache, none)
  | some cached =>
    if cached.expiresAt ≤ now then (cache.deleteCached normalized, none)
    else if cached.signature ≠ signature then (cache, none)
    else if cached.generation ≠ cache.getGeneration normalized then (cache, none)
    else (cache, some cached.value)

/-- `isWritebackEligible` -/
def isWritebackEligible (cache : PreviewReadCacheFacade) (value : PreviewReadSnapshotSuccess)
    (generation : ℕ) : Bool :=
  value.startSignature = value.endSignature && cache.getGeneration value.realPath = generation

/-- The loop of `evictOverLimit`, at most so many times -/
def evictTimes (cache : PreviewReadCacheFacade) : ℕ → PreviewReadCacheFacade
  | 0 => cache
  | times + 1 =>
    if (cache.fsReadCache.toList.length : ℤ) > cache.maxEntries ||
        (cache.fsReadCacheBytes : ℤ) > cache.maxBytes then
      match cache.fsReadCache.toList.head? with
      | none => cache
      | some (oldestKey, _) => (cache.deleteCached oldestKey).evictTimes times
    else cache

/-- `evictOverLimit`: every time one snapshot goes. -/
def evictOverLimit (cache : PreviewReadCacheFacade) : PreviewReadCacheFacade :=
  cache.evictTimes cache.fsReadCache.toList.length

/-- `writeSnapshot` -/
def writeSnapshot (cache : PreviewReadCacheFacade) (now : ℚ) (value : PreviewReadSnapshotSuccess)
    (generation : ℕ) : PreviewReadCacheFacade :=
  let cache := cache.sweepExpired now
  if !cache.isWritebackEligible value generation then cache
  else
    let normalized := cache.normalizePath value.realPath
    let bytes := estimateSnapshotBytes value
    if (bytes : ℤ) > cache.maxEntryBytes || cache.maxEntries = 0 || cache.maxBytes = 0 then cache
    else
      let cache := cache.deleteCached normalized
      evictOverLimit
        { cache with
          fsReadCache := cache.fsReadCache.set normalized
            { signature := value.startSignature
              generation
              expiresAt := now + cache.ttlMs
              bytes
              value }
          fsReadCacheBytes := cache.fsReadCacheBytes + bytes }

/-- `invalidatePath` -/
def invalidatePath (cache : PreviewReadCacheFacade) (realPath : String) : PreviewReadCacheFacade :=
  let normalized := cache.normalizePath realPath
  (cache.bumpGeneration normalized).deleteCached normalized

/-! ## What goes and what stays -/

/-- The other cache has no snapshot that this one has not, and the same generations. -/
structure Drops (cache other : PreviewReadCacheFacade) : Prop where
  cwd : other.cwd = cache.cwd
  generations : other.fsReadGenerations = cache.fsReadGenerations
  mem : ∀ entry ∈ other.fsReadCache.toList, entry ∈ cache.fsReadCache.toList

variable {cache other third : PreviewReadCacheFacade} {now : ℚ} {realPath signature path : String}
  {value : PreviewReadSnapshotSuccess} {generation : ℕ}

theorem Drops.refl : cache.Drops cache := ⟨rfl, rfl, fun _ => id⟩

theorem Drops.trans (h : cache.Drops other) (h' : other.Drops third) : cache.Drops third :=
  ⟨h'.cwd.trans h.cwd, h'.generations.trans h.generations,
    fun entry hmem => h.mem entry (h'.mem entry hmem)⟩

theorem Drops.normalizePath (h : cache.Drops other) :
    other.normalizePath path = cache.normalizePath path := by
  rw [PreviewReadCacheFacade.normalizePath, h.cwd]
  rfl

theorem Drops.getGeneration (h : cache.Drops other) :
    other.getGeneration path = cache.getGeneration path := by
  rw [PreviewReadCacheFacade.getGeneration, h.generations, h.normalizePath]
  rfl

theorem drops_deleteCached : cache.Drops (cache.deleteCached path) := by
  unfold deleteCached
  split
  · exact .refl
  · exact ⟨rfl, rfl, fun entry hmem => (OrderedMap.mem_delete.1 hmem).1⟩

theorem drops_foldl (entries : List (String × PreviewReadCachedSnapshot)) :
    cache.Drops (entries.foldl (fun cache (key, cached) =>
      if cached.expiresAt ≤ now then cache.deleteCached key else cache) cache) := by
  induction entries generalizing cache with
  | nil => exact .refl
  | cons entry entries ih =>
    rw [List.foldl_cons]
    dsimp only
    split
    · exact drops_deleteCached.trans ih
    · exact ih

theorem drops_sweepExpired : cache.Drops (cache.sweepExpired now) := drops_foldl _

theorem drops_evictTimes (times : ℕ) : cache.Drops (cache.evictTimes times) := by
  induction times generalizing cache with
  | zero => exact .refl
  | succ times ih =>
    rw [evictTimes]
    split
    · split
      · exact .refl
      · exact drops_deleteCached.trans ih
    · exact .refl

theorem normalizePath_normalizePath :
    cache.normalizePath (cache.normalizePath path) = cache.normalizePath path := resolve_resolve

theorem getGeneration_normalizePath :
    cache.getGeneration (cache.normalizePath path) = cache.getGeneration path := by
  rw [getGeneration, normalizePath_normalizePath]
  rfl

/-- **A snapshot that is found is of the path, and of its generation.** -/
theorem getCached_spec : cache.Drops (cache.getCached now realPath signature).1 ∧
    ∀ value, (cache.getCached now realPath signature).2 = some value →
      ∃ cached, (cache.normalizePath realPath, cached) ∈ cache.fsReadCache.toList ∧
        cached.value = value ∧ cached.generation = cache.getGeneration realPath := by
  have hsweep := @drops_sweepExpired cache now
  unfold getCached
  dsimp only
  split
  · exact ⟨hsweep, nofun⟩
  · rename_i cached hcached
    split
    · exact ⟨hsweep.trans drops_deleteCached, nofun⟩
    · split
      · exact ⟨hsweep, nofun⟩
      · split
        · exact ⟨hsweep, nofun⟩
        · rename_i hgeneration
          refine ⟨hsweep, fun value hvalue => ⟨cached, ?_, Option.some.inj hvalue, ?_⟩⟩
          · rw [← hsweep.normalizePath]
            exact hsweep.mem _ (OrderedMap.get?_eq_some.1 hcached)
          · rw [not_not.1 hgeneration, getGeneration_normalizePath, hsweep.getGeneration]

/-- **A snapshot that is written is of the generation of its path.** -/
theorem writeSnapshot_spec : (cache.writeSnapshot now value generation).cwd = cache.cwd ∧
    (cache.writeSnapshot now value generation).fsReadGenerations = cache.fsReadGenerations ∧
    ∀ path cached, (path, cached) ∈ (cache.writeSnapshot now value generation).fsReadCache.toList →
      (path, cached) ∈ cache.fsReadCache.toList ∨
        path = cache.normalizePath value.realPath ∧ cached.value = value ∧
          cached.generation = generation ∧ cache.getGeneration value.realPath = generation := by
  have hsweep := @drops_sweepExpired cache now
  have hkeep : ∀ path cached, (path, cached) ∈ (cache.sweepExpired now).fsReadCache.toList →
      (path, cached) ∈ cache.fsReadCache.toList ∨
        path = cache.normalizePath value.realPath ∧ cached.value = value ∧
          cached.generation = generation ∧ cache.getGeneration value.realPath = generation :=
    fun path cached hmem => Or.inl (hsweep.mem _ hmem)
  unfold writeSnapshot
  dsimp only
  split
  · exact ⟨hsweep.cwd, hsweep.generations, hkeep⟩
  · rename_i heligible
    split
    · exact ⟨hsweep.cwd, hsweep.generations, hkeep⟩
    · have hdel := hsweep.trans (@drops_deleteCached _
        ((cache.sweepExpired now).normalizePath value.realPath))
      have hgen : cache.getGeneration value.realPath = generation := by
        rw [← hsweep.getGeneration]
        simp only [isWritebackEligible, Bool.not_eq_true', Bool.not_eq_false, Bool.and_eq_true,
          decide_eq_true_eq] at heligible
        exact heligible.2
      refine ⟨(drops_evictTimes _).cwd.trans hdel.cwd,
        (drops_evictTimes _).generations.trans hdel.generations, fun path cached hin => ?_⟩
      rcases OrderedMap.mem_set.1 ((drops_evictTimes _).mem _ hin) with heq | ⟨hold, -⟩
      · obtain ⟨rfl, rfl⟩ := Prod.mk.inj heq
        exact Or.inr ⟨hsweep.normalizePath, rfl, rfl, hgen⟩
      · exact Or.inl (hdel.mem _ hold)

/-- **Invalidation raises the generation of the path**, and of no other one. -/
theorem invalidatePath_spec : (cache.invalidatePath realPath).cwd = cache.cwd ∧
    (∀ entry ∈ (cache.invalidatePath realPath).fsReadCache.toList,
      entry ∈ cache.fsReadCache.toList) ∧
    ∀ path, (cache.invalidatePath realPath).getGeneration path =
      if cache.normalizePath path = cache.normalizePath realPath
      then cache.getGeneration path + 1 else cache.getGeneration path := by
  have hdel := @drops_deleteCached (cache.bumpGeneration (cache.normalizePath realPath))
    (cache.normalizePath realPath)
  refine ⟨hdel.cwd, hdel.mem, fun path => hdel.getGeneration.trans ?_⟩
  have hbump : (cache.bumpGeneration (cache.normalizePath realPath)).fsReadGenerations =
      cache.fsReadGenerations.set (cache.normalizePath realPath)
        (cache.getGeneration realPath + 1) := by
    rw [bumpGeneration]
    dsimp only
    rw [normalizePath_normalizePath, getGeneration_normalizePath]
  rw [getGeneration, hbump, OrderedMap.get?_set]
  have hpath : (cache.bumpGeneration (cache.normalizePath realPath)).normalizePath path =
      cache.normalizePath path := rfl
  rw [hpath]
  split
  · rename_i heq
    rw [Option.getD_some, getGeneration, getGeneration, heq]
  · rfl
/-! ## What a key tells -/

/-- Two texts that end in the same character followed by what has it not. -/
theorem eq_of_append_cons {front front' back back' : List Char} {c : Char} (h : c ∉ back)
    (h' : c ∉ back') (heq : front ++ c :: back = front' ++ c :: back') :
    front = front' ∧ back = back' := by
  rcases List.append_eq_append_iff.1 heq with ⟨d, rfl, hd⟩ | ⟨d, rfl, hd⟩
  · cases d with
    | nil => exact ⟨(List.append_nil _).symm, (List.cons.inj hd).2⟩
    | cons x d =>
      refine absurd ?_ h
      rw [(List.cons.inj hd).2]
      exact List.mem_append_right _ List.mem_cons_self
  · cases d with
    | nil => exact ⟨List.append_nil _, (List.cons.inj hd).2.symm⟩
    | cons x d =>
      refine absurd ?_ h'
      rw [(List.cons.inj hd).2]
      exact List.mem_append_right _ List.mem_cons_self

theorem colon_notMem_toString (n : ℕ) : ':' ∉ (toString n).toList := by
  rw [Nat.toString_eq_repr, Nat.toList_repr]
  intro h
  exact absurd (Nat.isDigit_of_mem_toDigits (by decide) (by decide) h) (by decide)

theorem toString_injective {m n : ℕ} (h : (toString m).toList = (toString n).toList) : m = n := by
  rw [Nat.toString_eq_repr, Nat.toString_eq_repr, Nat.toList_repr, Nat.toList_repr] at h
  have hvalue := congrArg (Nat.ofDigitChars 10 · 0) h
  rwa [Nat.ofDigitChars_toDigits (by decide) le_rfl,
    Nat.ofDigitChars_toDigits (by decide) le_rfl] at hvalue

theorem toList_makeSnapshotKey {mtimeMs size : Numeral} :
    (cache.makeSnapshotKey realPath (fileSignatureForStat mtimeMs size) generation).toList =
      (((((cache.normalizePath realPath).toList ++ [':']) ++ ':' :: mtimeMs.text.toList) ++
        ':' :: size.text.toList) ++ [':']) ++ ':' :: (toString generation).toList := by
  simp [makeSnapshotKey, fileSignatureForStat]

/-- **A key tells the path and the generation.** -/
theorem makeSnapshotKey_inj {mtimeMs mtimeMs' size size' : Numeral} {realPath' : String}
    {generation' : ℕ}
    (h : cache.makeSnapshotKey realPath (fileSignatureForStat mtimeMs size) generation =
      cache.makeSnapshotKey realPath' (fileSignatureForStat mtimeMs' size') generation') :
    cache.normalizePath realPath = cache.normalizePath realPath' ∧ generation = generation' := by
  have hlist := congrArg String.toList h
  rw [toList_makeSnapshotKey, toList_makeSnapshotKey] at hlist
  obtain ⟨hfront, hgeneration⟩ := eq_of_append_cons (colon_notMem_toString _)
    (colon_notMem_toString _) hlist
  refine ⟨?_, toString_injective hgeneration⟩
  have hsize := List.append_cancel_right hfront
  obtain ⟨hmtimeMs, -⟩ := eq_of_append_cons size.colon size'.colon hsize
  obtain ⟨hpath, -⟩ := eq_of_append_cons mtimeMs.colon mtimeMs'.colon hmtimeMs
  exact String.toList_inj.1 (List.append_cancel_right hpath)

end PreviewReadCacheFacade

end Imcodes.FilePreview
