import Mathlib.Data.List.Infix
import Imcodes.Collections.Modify
import Imcodes.Machine.Runs
import Imcodes.Timeline.Store

/-!
# What is left of a log that is truncated

Once every call has settled, the file should have the last lines that were appended, in their
order and none missing among them, and as many as the truncations were to keep.

* `Ordered.step` — lines land in the order in which they were appended, while no append finds the
  chain gone and earlier lines still on their way.
* `Kept.step` — the file and every copy that may replace it end with the last line that landed,
  while no line lands between the read and the rename of a truncation, and what a truncation reads
  to keep is read whole.
* `losesNothing_of_along` — such runs lose nothing; `not_losesNothing` — a line that lands in
  between is gone.
-/

namespace Imcodes.Timeline

open Machine Modify LogFile

/-- The file is going to be replaced by what was read before. -/
def TruncatePhase.isReplacing : TruncatePhase → Bool
  | writing _ | copied => true
  | waiting _ | renamed | unlinking | done => false

/-- Every call has settled. -/
structure Store.Settled (store : Store) : Prop where
  appends : ∀ append ∈ store.appends, append.phase = .settled
  truncates : ∀ truncate ∈ store.truncates, truncate.phase = .done

/-- A store over a file of these lines. -/
def Store.start (initial : List Line) : Store where
  file := initial.flatMap Line.bytes

/-- The lines of the file before and of the calls, in the order of the calls. -/
def Store.appended (store : Store) (initial : List Line) : List (List Char) :=
  (initial ++ store.appends.map Append.line).map Line.text

/-- The file has the last lines, at least as many as every truncation was to keep. -/
structure Store.LosesNothing (store : Store) (initial : List Line) : Prop where
  ends : IsLines store.file
  suffix : linesOf store.file <:+ store.appended initial
  length : ∀ keep, (∀ truncate ∈ store.truncates, keep ≤ truncate.keepLast) →
    min keep (store.appended initial).length ≤ (linesOf store.file).length

/-- The file has no more lines than there are to keep, or no chunk in which it is read begins
inside a character of those to keep. -/
def Store.ReadsWhole (store : Store) (keepLast : ℕ) : Prop :=
  (linesOf store.file).length ≤ keepLast ∨ Intact (Utf8.decode store.file) keepLast

/-- The next step of a truncation is to read the file. -/
def Store.isReading (store : Store) (truncate : Truncate) : Bool :=
  match truncate.phase with
  | .waiting chain => store.isSettled chain
  | .writing _ | .copied | .renamed | .unlinking | .done => false

/-- A line does not land while the file is going to be replaced, an append that finds no
chain finds the lines before it in the file, and a truncation reads whole what it keeps. -/
def Store.InOrder (store : Store) : StoreEvent → Prop
  | .append _ => store.chain = none → ∀ append ∈ store.appends, append.phase.hasLanded = true
  | .appendStep i => (∃ append ∈ store.appends[i]?, append.phase = .writing) →
      ∀ truncate ∈ store.truncates, truncate.phase.isReplacing = false
  | .truncate keepLast => store.chain = none → store.ReadsWhole keepLast
  | .truncateStep i => ∀ truncate ∈ store.truncates[i]?, store.isReading truncate = true →
      store.ReadsWhole truncate.keepLast

instance (store : Store) (keepLast : ℕ) : Decidable (store.ReadsWhole keepLast) :=
  inferInstanceAs (Decidable (_ ∨ _))

instance (store : Store) (event : StoreEvent) : Decidable (store.InOrder event) := by
  cases event
  · exact inferInstanceAs (Decidable (_ → _))
  · exact inferInstanceAs (Decidable (_ → _))
  · exact inferInstanceAs (Decidable (_ → _))
  · exact inferInstanceAs (Decidable (∀ truncate ∈ _, _ → _))

/-! ## The order in which lines land -/

variable {store : Store} {initial : List Line} {lines : List (List Char)} {i j : ℕ}
  {append : Append} {truncate : Truncate} {event : StoreEvent}

/-- The line of an append is in the file, or was. -/
def Store.HasLanded (store : Store) (i : ℕ) : Prop :=
  ∃ append, store.appends[i]? = some append ∧ append.phase.hasLanded = true

/-- An append starts when the lines before it have landed. -/
structure Ordered (store : Store) : Prop where
  chain : ∀ p, store.chain = some p → p + 1 = store.appends.length
  prev : ∀ i append, store.appends[i]? = some append → ∀ p, append.prev = some p → p + 1 = i
  free : ∀ i append, store.appends[i]? = some append → append.prev = none →
    ∀ j < i, store.HasLanded j
  started : ∀ i append, store.appends[i]? = some append → append.phase ≠ .waiting →
    ∀ j < i, store.HasLanded j

theorem getElem?_advance {phase : AppendPhase} {a : Append} :
    (store.advance i phase).appends[j]? = some a ↔ ∃ append, store.appends[j]? = some append ∧
      a = if i = j then { append with phase := phase } else append := by
  rw [Store.advance, List.getElem?_modify, Option.map_eq_map, Option.map_eq_some_iff]
  simp only [eq_comm]

theorem hasLanded_advance {phase : AppendPhase} (hi : store.appends[i]? = some append)
    (hphase : append.phase.hasLanded = true → phase.hasLanded = true) (h : store.HasLanded j) :
    (store.advance i phase).HasLanded j := by
  obtain ⟨other, hj, hlanded⟩ := h
  refine ⟨_, getElem?_advance.2 ⟨other, hj, rfl⟩, ?_⟩
  split
  · rename_i hij
    subst hij
    rw [hi] at hj
    obtain rfl := Option.some.inj hj
    exact hphase hlanded
  · exact hlanded

/-- An append goes on, when the lines before it have landed. -/
theorem Ordered.advance {phase : AppendPhase} (h : Ordered store)
    (hi : store.appends[i]? = some append)
    (hphase : append.phase.hasLanded = true → phase.hasLanded = true)
    (hbefore : ∀ j < i, store.HasLanded j) : Ordered (store.advance i phase) := by
  have hmono : ∀ j, store.HasLanded j → (store.advance i phase).HasLanded j :=
    fun j => hasLanded_advance hi hphase
  constructor
  · intro p hp
    exact (h.chain p hp).trans (List.length_modify _ _ _).symm
  · intro j a hj p hp
    obtain ⟨other, hother, rfl⟩ := getElem?_advance.1 hj
    refine h.prev j other hother p ?_
    split at hp <;> exact hp
  · intro j a hj hprev k hk
    obtain ⟨other, hother, rfl⟩ := getElem?_advance.1 hj
    refine hmono k (h.free j other hother ?_ k hk)
    split at hprev <;> exact hprev
  · intro j a hj hstarted k hk
    obtain ⟨other, hother, rfl⟩ := getElem?_advance.1 hj
    by_cases hij : i = j
    · exact hmono k (hbefore k (hij ▸ hk))
    · rw [if_neg hij] at hstarted
      exact hmono k (h.started j other hother hstarted k hk)

/-- Only the order of the appends counts. -/
theorem Ordered.congr {store' : Store} (h : Ordered store)
    (happends : store'.appends = store.appends)
    (hchain : ∀ p, store'.chain = some p → store.chain = some p) : Ordered store' := by
  have hlanded : ∀ j, store.HasLanded j → store'.HasLanded j := fun j hj => by
    rwa [Store.HasLanded, happends]
  constructor
  · intro p hp
    rw [happends]
    exact h.chain p (hchain p hp)
  · rw [happends]
    exact h.prev
  · rw [happends]
    exact fun i a hi hprev j hj => hlanded j (h.free i a hi hprev j hj)
  · rw [happends]
    exact fun i a hi hstarted j hj => hlanded j (h.started i a hi hstarted j hj)

theorem Ordered.appendCall {line : Line} (h : Ordered store)
    (hfree : store.chain = none → ∀ append ∈ store.appends, append.phase.hasLanded = true) :
    Ordered (store.step (.append line)) := by
  have hold : ∀ j, store.HasLanded j → (store.step (.append line)).HasLanded j := by
    rintro j ⟨a, hj, hlanded⟩
    have hlt := (List.getElem?_eq_some_iff.1 hj).1
    exact ⟨a, (List.getElem?_append_left hlt).trans hj, hlanded⟩
  have hcases : ∀ j a, (store.step (.append line)).appends[j]? = some a →
      store.appends[j]? = some a ∨
        j = store.appends.length ∧ a = ⟨line, store.chain, .waiting⟩ := by
    intro j a hj
    change (store.appends ++ [_])[j]? = some a at hj
    rcases lt_or_ge j store.appends.length with hlt | hge
    · rw [List.getElem?_append_left hlt] at hj
      exact Or.inl hj
    · rw [List.getElem?_append_right hge, List.getElem?_singleton] at hj
      split at hj
      · rename_i hzero
        exact Or.inr ⟨by omega, (Option.some.inj hj).symm⟩
      · cases hj
  constructor
  · intro p hp
    obtain rfl := Option.some.inj hp
    change _ = (store.appends ++ [_]).length
    rw [List.length_append, List.length_singleton]
  · intro j a hj p hp
    rcases hcases j a hj with hj | ⟨rfl, rfl⟩
    · exact h.prev j a hj p hp
    · exact h.chain p hp
  · intro j a hj hprev k hk
    rcases hcases j a hj with hj | ⟨rfl, rfl⟩
    · exact hold k (h.free j a hj hprev k hk)
    · exact hold k ⟨store.appends[k], List.getElem?_eq_getElem hk,
        hfree hprev _ (List.getElem_mem hk)⟩
  · intro j a hj hstarted k hk
    rcases hcases j a hj with hj | ⟨rfl, rfl⟩
    · exact hold k (h.started j a hj hstarted k hk)
    · exact absurd rfl hstarted

/-- The lines before an append have landed when the promise that it waits for is settled. -/
theorem Ordered.before (h : Ordered store) (hi : store.appends[i]? = some append)
    (hprev : append.prev.all store.isSettled = true) : ∀ j < i, store.HasLanded j := by
  intro j hj
  cases hp : append.prev with
  | none => exact h.free i append hi hp j hj
  | some p =>
    rw [hp, Option.all_some, Store.isSettled] at hprev
    obtain ⟨other, hother, hsettled⟩ := (Option.any_eq_true _ _).1 hprev
    have hsettled : other.phase = .settled := of_decide_eq_true hsettled
    rcases Nat.lt_succ_iff_lt_or_eq.1 ((h.prev i append hi p hp).symm ▸ hj) with hlt | rfl
    · exact h.started p other hother (by rw [hsettled]; nofun) j hlt
    · exact ⟨other, hother, by rw [hsettled]; rfl⟩

theorem Ordered.stepAppend (h : Ordered store) (hi : store.appends[i]? = some append) :
    Ordered (store.stepAppend i append) := by
  unfold Store.stepAppend
  cases hphase : append.phase with
  | waiting =>
    dsimp only
    split
    · rename_i hprev
      refine h.advance hi (fun hlanded => ?_) (h.before hi hprev)
      rw [hphase] at hlanded
      cases hlanded
    · exact h
  | mkdir =>
    have hordered : Ordered (store.advance i .writing) := by
      refine h.advance hi (fun hlanded => ?_) (h.started i append hi (by rw [hphase]; nofun))
      rw [hphase] at hlanded
      cases hlanded
    exact hordered.congr rfl fun _ => id
  | writing =>
    have hordered : Ordered (store.advance i .landed) :=
      h.advance hi (fun _ => rfl) (h.started i append hi (by rw [hphase]; nofun))
    exact hordered.congr rfl fun _ => id
  | landed =>
    exact h.advance hi (fun _ => rfl) (h.started i append hi (by rw [hphase]; nofun))
  | settled =>
    dsimp only
    split
    · exact h.congr rfl nofun
    · exact h

theorem appends_stepTruncate : (store.stepTruncate i truncate).appends = store.appends := by
  unfold Store.stepTruncate
  split
  · split <;> rfl
  · rfl
  · split <;> rfl
  · rfl
  · rfl
  · rfl

theorem chain_stepTruncate (p : ℕ) (h : (store.stepTruncate i truncate).chain = some p) :
    store.chain = some p := by
  unfold Store.stepTruncate at h
  split at h
  · split at h <;> exact h
  · exact h
  · split at h <;> exact h
  · cases h
  · exact h
  · exact h

theorem Ordered.step (h : Ordered store) (hok : store.InOrder event) :
    Ordered (store.step event) := by
  cases event with
  | append line => exact h.appendCall hok
  | truncate keepLast => exact h.congr rfl fun _ => id
  | appendStep i =>
    dsimp only [Store.step]
    split
    · rename_i append hi
      exact h.stepAppend hi
    · exact h
  | truncateStep i =>
    dsimp only [Store.step]
    split
    · exact h.congr appends_stepTruncate chain_stepTruncate
    · exact h

/-! ## What the file keeps -/

/-- The line of an append that has landed. -/
def Append.landed (append : Append) : Option Line :=
  if append.phase.hasLanded then some append.line else none

/-- The lines that have landed, after those of the file before. -/
def Store.arrived (store : Store) (initial : List Line) : List (List Char) :=
  (initial ++ store.appends.filterMap Append.landed).map Line.text

/-- What the truncations were to keep. -/
def Store.keeps (store : Store) : List ℕ := store.truncates.map Truncate.keepLast

/-- The last lines of some, at least as many as there were to keep. -/
structure Recent (keeps : List ℕ) (arrived lines : List (List Char)) : Prop where
  suffix : lines <:+ arrived
  length : ∀ keep, (∀ keepLast ∈ keeps, keep ≤ keepLast) → min keep arrived.length ≤ lines.length

/-- A file of recent lines. -/
structure Current (keeps : List ℕ) (arrived : List (List Char)) (file : List UInt8) : Prop where
  isLines : IsLines file
  recent : Recent keeps arrived (linesOf file)

/-- The file, what is read of it and the copy are recent, and a copy waits to be renamed. -/
structure Kept (initial : List Line) (store : Store) : Prop where
  file : Current store.keeps (store.arrived initial) store.file
  writing : ∀ truncate ∈ store.truncates, ∀ kept, truncate.phase = .writing kept →
    Recent store.keeps (store.arrived initial) kept
  tmp : ∀ copy, store.tmp = some copy → Current store.keeps (store.arrived initial) copy
  copied : store.tmp.isSome = true → ∃ truncate ∈ store.truncates, truncate.phase = .copied

variable {keeps keeps' : List ℕ} {arrived : List (List Char)} {file : List UInt8} {keepLast : ℕ}

theorem Recent.mono (h : Recent keeps arrived lines) (hsub : ∀ k ∈ keeps, k ∈ keeps') :
    Recent keeps' arrived lines :=
  ⟨h.suffix, fun keep hkeep => h.length keep fun k hk => hkeep k (hsub k hk)⟩

theorem Recent.concat {line : List Char} (h : Recent keeps arrived lines) :
    Recent keeps (arrived ++ [line]) (lines ++ [line]) := by
  refine ⟨?_, fun keep hkeep => ?_⟩
  · obtain ⟨before, hbefore⟩ := h.suffix
    exact ⟨before, by rw [← hbefore, List.append_assoc]⟩
  · have hlength := h.length keep hkeep
    simp only [List.length_append, List.length_singleton]
    omega

theorem Current.mono (h : Current keeps arrived file) (hsub : ∀ k ∈ keeps, k ∈ keeps') :
    Current keeps' arrived file :=
  ⟨h.isLines, h.recent.mono hsub⟩

theorem Current.land (h : Current keeps arrived file) (line : Line) :
    Current keeps (arrived ++ [line.text]) (file ++ line.bytes) := by
  obtain ⟨hlines, heq⟩ := h.isLines.append line
  refine ⟨hlines, ?_⟩
  rw [heq]
  exact h.recent.concat

/-- Lines that have landed are written. -/
theorem Recent.current (h : Recent keeps (store.arrived initial) lines) :
    Current keeps (store.arrived initial) (joinBytes lines) := by
  have hproper : Lines.Proper '\n' lines := by
    intro text htext
    obtain ⟨line, -, rfl⟩ := List.mem_map.1 (h.suffix.subset htext)
    exact ⟨line.ne_nil, line.not_mem⟩
  obtain ⟨hlines, heq⟩ := isLines_joinBytes hproper
  refine ⟨hlines, ?_⟩
  rw [heq]
  exact h

/-- What a truncation reads to keep, read whole. -/
theorem Current.of_readTail {kept : List (List Char)} (h : Current keeps arrived store.file)
    (hwhole : store.ReadsWhole keepLast) (hmem : keepLast ∈ keeps)
    (hread : store.readTail keepLast = .writing kept) : Recent keeps arrived kept := by
  unfold Store.readTail at hread
  dsimp only at hread
  rw [h.isLines.length_readTailLines] at hread
  split at hread
  · cases hread
  · rename_i hlong
    obtain rfl := TruncatePhase.writing.inj hread
    rw [h.isLines.take_readTailLines (hwhole.resolve_left (by omega))]
    refine ⟨List.IsSuffix.trans ?_ h.recent.suffix, fun keep hkeep => ?_⟩
    · rw [← List.reverse_prefix, List.reverse_reverse]
      exact List.take_prefix _ _
    · have hle := hkeep keepLast hmem
      rw [List.length_reverse, List.length_take, List.length_reverse]
      omega

theorem keeps_proceed {phase : TruncatePhase} : (store.proceed i phase).keeps = store.keeps := by
  unfold Store.keeps Store.proceed
  refine List.ext_getElem? fun j => ?_
  simp only [List.getElem?_map, List.getElem?_modify]
  cases store.truncates[j]? with
  | none => rfl
  | some other =>
    by_cases hij : i = j
    · simp [hij]
    · simp [hij]

theorem arrived_advance {phase : AppendPhase} (hi : store.appends[i]? = some append)
    (hphase : phase.hasLanded = append.phase.hasLanded) :
    (store.advance i phase).arrived initial = store.arrived initial := by
  refine congrArg (fun landed => (initial ++ landed).map Line.text) (filterMap_modify hi ?_)
  rw [Append.landed, Append.landed, hphase]

/-- A line lands. -/
theorem arrived_land (h : Ordered store) (hi : store.appends[i]? = some append)
    (hphase : append.phase = .writing) :
    (store.advance i .landed).arrived initial = store.arrived initial ++ [append.line.text] := by
  have hlanded : (store.advance i .landed).appends.filterMap Append.landed =
      store.appends.filterMap Append.landed ++ [append.line] := by
    refine filterMap_modify_concat hi ?_ rfl fun j other hij hj => ?_
    · rw [Append.landed, hphase]
      rfl
    · cases hlanded : other.phase.hasLanded with
      | false => rw [Append.landed, hlanded, if_neg (by nofun)]
      | true =>
        have hstarted : other.phase ≠ .waiting := by
          rintro heq
          rw [heq] at hlanded
          cases hlanded
        obtain ⟨a, ha, halanded⟩ := h.started j other hj hstarted i hij
        rw [hi] at ha
        obtain rfl := Option.some.inj ha
        rw [hphase] at halanded
        cases halanded
  rw [Store.arrived, Store.arrived, hlanded, ← List.append_assoc, List.map_append]
  rfl

/-- A truncation has come further, with something recent to keep or nothing. -/
theorem Kept.proceed {phase : TruncatePhase} {tmp : Option (List UInt8)}
    {chain : Option ℕ} (h : Kept initial store) (hi : store.truncates[i]? = some truncate)
    (hfile : Current store.keeps (store.arrived initial) file)
    (hphase : ∀ kept, phase = .writing kept → Recent store.keeps (store.arrived initial) kept)
    (htmp : ∀ copy, tmp = some copy → Current store.keeps (store.arrived initial) copy)
    (hcopied : tmp.isSome = true → phase = .copied ∨
      store.tmp.isSome = true ∧ truncate.phase ≠ .copied) :
    Kept initial { store.proceed i phase with file := file, tmp := tmp, chain := chain } := by
  have hkeeps : Store.keeps
      { store.proceed i phase with file := file, tmp := tmp, chain := chain } = store.keeps :=
    keeps_proceed
  have harrived : Store.arrived
      { store.proceed i phase with file := file, tmp := tmp, chain := chain } initial =
      store.arrived initial := rfl
  constructor
  · rw [hkeeps, harrived]
    exact hfile
  · rw [hkeeps, harrived]
    intro t ht kept hkept
    rcases mem_modify ht with ht | ⟨other, -, rfl⟩
    · exact h.writing t ht kept hkept
    · exact hphase kept hkept
  · rw [hkeeps, harrived]
    exact htmp
  · intro hsome
    have hself : ∃ t ∈ (store.proceed i phase).truncates, t.phase = phase := by
      refine ⟨{ truncate with phase := phase }, List.mem_of_getElem? (i := i) ?_, rfl⟩
      rw [Store.proceed, List.getElem?_modify, hi]
      simp
    rcases hcopied hsome with rfl | ⟨hold, hne⟩
    · exact hself
    · obtain ⟨t, ht, hcopied⟩ := h.copied hold
      obtain ⟨j, hj⟩ := List.mem_iff_getElem?.1 ht
      refine ⟨t, List.mem_of_getElem? (i := j) ?_, hcopied⟩
      have hij : i ≠ j := by
        rintro rfl
        rw [hi] at hj
        obtain rfl := Option.some.inj hj
        exact hne hcopied
      rw [Store.proceed, List.getElem?_modify, hj]
      simp [hij]

theorem Kept.stepTruncate (h : Kept initial store) (hi : store.truncates[i]? = some truncate)
    (hwhole : store.isReading truncate = true → store.ReadsWhole truncate.keepLast) :
    Kept initial (store.stepTruncate i truncate) := by
  have hmem : truncate.keepLast ∈ store.keeps :=
    List.mem_map_of_mem (List.mem_of_getElem? hi)
  have hself := List.mem_of_getElem? hi
  unfold Store.stepTruncate
  cases hphase : truncate.phase with
  | waiting chain =>
    dsimp only
    split
    · rename_i hsettled
      have hreading : store.isReading truncate = true := by
        rw [Store.isReading, hphase]
        exact hsettled
      refine h.proceed hi h.file
        (fun kept hkept => h.file.of_readTail (hwhole hreading) hmem hkept) h.tmp
        fun hsome => Or.inr ⟨hsome, ?_⟩
      rw [hphase]
      nofun
    · exact h
  | writing kept =>
    refine h.proceed hi h.file nofun (fun copy hcopy => ?_) fun _ => Or.inl rfl
    obtain rfl := Option.some.inj hcopy
    exact (h.writing truncate hself kept hphase).current
  | copied =>
    dsimp only
    cases htmp : store.tmp with
    | some copy => exact h.proceed hi (h.tmp copy htmp) nofun nofun nofun
    | none =>
      have hkept : Kept initial { store.proceed i .unlinking with
          file := store.file, tmp := none, chain := store.chain } :=
        h.proceed hi h.file nofun nofun nofun
      rw [← htmp] at hkept
      exact hkept
  | renamed =>
    refine h.proceed hi h.file nofun h.tmp fun hsome => Or.inr ⟨hsome, ?_⟩
    rw [hphase]
    nofun
  | unlinking => exact h.proceed hi h.file nofun nofun nofun
  | done => exact h

/-- Only the lines that have landed and the truncations count. -/
theorem Kept.congr {store' : Store} (h : Kept initial store) (hfile : store'.file = store.file)
    (htmp : store'.tmp = store.tmp) (htruncates : store'.truncates = store.truncates)
    (harrived : store'.arrived initial = store.arrived initial) : Kept initial store' := by
  have hkeeps : store'.keeps = store.keeps :=
    congrArg (List.map Truncate.keepLast) htruncates
  constructor
  · rw [hkeeps, harrived, hfile]
    exact h.file
  · rw [hkeeps, harrived, htruncates]
    exact h.writing
  · rw [hkeeps, harrived, htmp]
    exact h.tmp
  · rw [htmp, htruncates]
    exact h.copied

theorem Kept.stepAppend (h : Kept initial store) (hordered : Ordered store)
    (hi : store.appends[i]? = some append)
    (hok : append.phase = .writing → ∀ t ∈ store.truncates, t.phase.isReplacing = false) :
    Kept initial (store.stepAppend i append) := by
  unfold Store.stepAppend
  cases hphase : append.phase with
  | waiting =>
    dsimp only
    split
    · refine h.congr rfl rfl rfl (arrived_advance hi ?_)
      rw [hphase]
      split <;> rfl
    · exact h
  | mkdir => exact h.congr rfl rfl rfl (arrived_advance hi (by rw [hphase]; rfl))
  | writing =>
    have hfree := hok hphase
    have hland : Store.arrived
        { store.advance i .landed with file := store.file ++ append.line.bytes } initial =
          store.arrived initial ++ [append.line.text] := arrived_land hordered hi hphase
    have hnone : store.tmp = none := by
      cases htmp : store.tmp with
      | none => rfl
      | some copy =>
        obtain ⟨t, ht, hcopied⟩ := h.copied (by rw [htmp]; rfl)
        have hreplacing := hfree t ht
        rw [hcopied] at hreplacing
        cases hreplacing
    constructor
    · rw [hland]
      exact h.file.land append.line
    · intro t ht kept hkept
      have hreplacing := hfree t ht
      rw [hkept] at hreplacing
      cases hreplacing
    · intro copy hcopy
      cases hnone.symm.trans hcopy
    · intro hsome
      change store.tmp.isSome = true at hsome
      rw [hnone] at hsome
      cases hsome
  | landed => exact h.congr rfl rfl rfl (arrived_advance hi (by rw [hphase]; rfl))
  | settled =>
    dsimp only
    split
    · exact h.congr rfl rfl rfl rfl
    · exact h

theorem Kept.truncateCall (h : Kept initial store)
    (hwhole : store.chain = none → store.ReadsWhole keepLast) :
    Kept initial (store.step (.truncate keepLast)) := by
  have hsub : ∀ k ∈ store.keeps, k ∈ (store.step (.truncate keepLast)).keeps := by
    intro k hk
    change k ∈ (store.truncates ++ [_]).map Truncate.keepLast
    rw [List.map_append]
    exact List.mem_append_left _ hk
  have hself : keepLast ∈ (store.step (.truncate keepLast)).keeps := by
    change keepLast ∈ (store.truncates ++ [_]).map Truncate.keepLast
    simp
  have hfile := h.file.mono hsub
  refine ⟨hfile, fun t ht kept hkept => ?_, fun copy hcopy => (h.tmp copy hcopy).mono hsub,
    fun hsome => ?_⟩
  · rcases List.mem_append.1 ht with ht | ht
    · exact (h.writing t ht kept hkept).mono hsub
    · rw [List.mem_singleton.1 ht] at hkept
      dsimp only at hkept
      split at hkept
      · cases hkept
      · rename_i hchain
        have hread : store.readTail keepLast = .writing kept := hkept
        exact hfile.of_readTail (hwhole hchain) hself hread
  · obtain ⟨t, ht, hcopied⟩ := h.copied hsome
    exact ⟨t, List.mem_append_left _ ht, hcopied⟩

theorem Kept.step (h : Kept initial store) (hordered : Ordered store) (hok : store.InOrder event) :
    Kept initial (store.step event) := by
  cases event with
  | append line =>
    refine h.congr rfl rfl rfl (congrArg (fun landed => (initial ++ landed).map Line.text) ?_)
    change (store.appends ++ [_]).filterMap Append.landed = _
    rw [List.filterMap_append]
    exact List.append_nil _
  | truncate keepLast => exact h.truncateCall hok
  | appendStep i =>
    dsimp only [Store.step]
    split
    · rename_i append hi
      exact h.stepAppend hordered hi fun hphase => hok ⟨append, hi, hphase⟩
    · exact h
  | truncateStep i =>
    dsimp only [Store.step]
    split
    · rename_i truncate hi
      exact h.stepTruncate hi (hok truncate hi)
    · exact h

theorem Kept.losesNothing (h : Kept initial store) (hsettled : store.Settled) :
    store.LosesNothing initial := by
  have hall : store.arrived initial = store.appended initial := by
    refine congrArg (fun landed => (initial ++ landed).map Line.text) ?_
    rw [← List.filterMap_eq_map]
    refine List.filterMap_congr fun append happend => ?_
    rw [Append.landed, hsettled.appends append happend]
    rfl
  refine ⟨h.file.isLines, ?_, fun keep hkeep => ?_⟩
  · rw [← hall]
    exact h.file.recent.suffix
  · rw [← hall]
    refine h.file.recent.length keep fun k hk => ?_
    obtain ⟨t, ht, rfl⟩ := List.mem_map.1 hk
    exact hkeep t ht

theorem kept_start : Kept initial (Store.start initial) := by
  obtain ⟨hlines, heq⟩ := isLines_flatMap initial
  have hstart : (Store.start initial).arrived initial = initial.map Line.text :=
    congrArg (List.map Line.text) (List.append_nil initial)
  have hfile : linesOf (Store.start initial).file = initial.map Line.text := heq
  refine ⟨⟨hlines, ?_, fun keep _ => ?_⟩, nofun, nofun, nofun⟩
  · rw [hstart, hfile]
  · rw [hstart, hfile]
    exact Nat.min_le_right _ _

/-- **A truncation loses nothing** in a run in which no line lands between the read and the rename
of a truncation, no append finds the chain gone before the lines before it have landed, and every
truncation reads whole what it keeps. -/
theorem losesNothing_of_along (initial : List Line) (events : List StoreEvent)
    (h : Along Store.step Store.InOrder events (Store.start initial))
    (hsettled : (run Store.step events (Store.start initial)).Settled) :
    (run Store.step events (Store.start initial)).LosesNothing initial := by
  have hinv := run_invariant (fun store : Store => Ordered store ∧ Kept initial store)
    (fun store event hinv hok => ⟨hinv.1.step hok, hinv.2.step hinv.1 hok⟩) ⟨?_, kept_start⟩ h
  · exact hinv.2.losesNothing hsettled
  · exact ⟨nofun, nofun, nofun, nofun⟩

/-! ## A line that lands while the file is replaced -/

/-- A line of one character. -/
def charLine (c : Char) (h : c ≠ '\n' := by decide) : Line where
  text := [c]
  ne_nil := List.cons_ne_nil _ _
  not_mem := by simpa using h.symm

/-- An append that takes all its steps. -/
def appendFully (line : Line) (i : ℕ) : List StoreEvent :=
  .append line :: List.replicate 5 (.appendStep i)

/-- A third line is appended while a truncation writes its copy. -/
def lateLine : List StoreEvent :=
  appendFully (charLine '1') 0 ++ appendFully (charLine '2') 1 ++ [.truncate 1] ++
    appendFully (charLine '3') 2 ++ List.replicate 3 (.truncateStep 0)

/-- The truncation is over before the third line is appended. -/
def promptLine : List StoreEvent :=
  appendFully (charLine '1') 0 ++ appendFully (charLine '2') 1 ++ [.truncate 1] ++
    List.replicate 3 (.truncateStep 0) ++ appendFully (charLine '3') 2

theorem losesNothing_of_along_promptLine :
    (run Store.step promptLine (Store.start [charLine '0'])).LosesNothing [charLine '0'] :=
  losesNothing_of_along [charLine '0'] promptLine (by decide +kernel)
    ⟨by decide +kernel, by decide +kernel⟩

/-- The third line is lost. -/
theorem not_losesNothing : ¬∀ (initial : List Line) (events : List StoreEvent),
    (run Store.step events (Store.start initial)).Settled →
      (run Store.step events (Store.start initial)).LosesNothing initial := by
  intro h
  have hsettled : (run Store.step lateLine (Store.start [])).Settled :=
    ⟨by decide +kernel, by decide +kernel⟩
  have hsuffix := (h [] lateLine hsettled).suffix
  revert hsuffix
  decide +kernel

end Imcodes.Timeline
