import Mathlib.Algebra.Order.BigOperators.Group.List
import Mathlib.Algebra.Order.Group.Nat
import Imcodes.Collections.OrderedMap
import Imcodes.Collections.Ranking
import Imcodes.Graphs.Depths
import Imcodes.Share.Target

/-!
# The sessions that a project is closed with

`collectProjectCloseTargets` collects the sessions of a project and the sub-sessions below them,
pass by pass, and sorts them by their depth, the deepest first.  The depth of a session is that of
its parent and one; depths are remembered once they are known.

* `mem_toStop` — what is collected.
* `collectProjectCloseTargets_iff` — the tree is closed children first exactly when there is one
  session at most, or the parents of the sessions that are collected make no cycle;
  `not_collectProjectCloseTargets` — two sessions that are each other's parents.
-/

namespace Imcodes.Sessions

open Share Graphs

structure SessionRecord where
  name : String
  projectName : String
  parentSession : Option String
deriving DecidableEq

namespace SessionRecord

/-- `session.parentSession`, if it is truthy -/
def parent (session : SessionRecord) : Option String := session.parentSession.filter (· ≠ "")

/-- `session.name.startsWith('deck_sub_')` -/
def isSub (session : SessionRecord) : Bool := startsWithPrefix session.name

end SessionRecord

/-- `toStop` -/
abbrev ToStop := OrderedMap String SessionRecord

/-- `toStop.has(name)` -/
def ToStop.has (toStop : ToStop) (name : String) : Bool := (toStop.get? name).isSome

/-- The sessions of the project. -/
def ownSessions (projectName : String) (sessions : List SessionRecord) : ToStop :=
  sessions.foldl (fun toStop session =>
    if session.projectName = projectName then toStop.set session.name session else toStop) .empty

/-- A session, in a pass: what is collected, and `changed`. -/
def visit (state : ToStop × Bool) (session : SessionRecord) : ToStop × Bool :=
  if !session.isSub then state
  else
    match session.parent with
    | none => state
    | some parent =>
        if state.1.has session.name then state
        else if !state.1.has parent then state
        else (state.1.set session.name session, true)

/-- `while (changed)` -/
def collectTree (sessions : List SessionRecord) : ℕ → ToStop → ToStop
  | 0, toStop => toStop
  | n + 1, toStop =>
      let state := sessions.foldl visit (toStop, false)
      if state.2 then collectTree sessions n state.1 else state.1

/-- What is collected; every pass that changes something adds one of the sessions. -/
def toStop (projectName : String) (sessions : List SessionRecord) : ToStop :=
  collectTree sessions (sessions.length + 1) (ownSessions projectName sessions)

/-- `toStop.get(session.parentSession)` -/
def ToStop.parentOf (toStop : ToStop) (session : SessionRecord) : Option SessionRecord :=
  session.parent.bind toStop.get?

/-- `depthOf`, which calls itself `fuel` times at most, and `depthCache` -/
def depthOf (toStop : ToStop) :
    ℕ → SessionRecord → OrderedMap String ℕ → Option (ℕ × OrderedMap String ℕ)
  | 0, _, _ => none
  | fuel + 1, session, depthCache =>
      match depthCache.get? session.name with
      | some cached => some (cached, depthCache)
      | none =>
          match toStop.parentOf session with
          | none => some (0, depthCache.set session.name 0)
          | some parent => do
              let (depth, depthCache) ← depthOf toStop fuel parent depthCache
              some (depth + 1, depthCache.set session.name (depth + 1))

/-- `collectProjectCloseTargets`, if no recursion is deeper than `fuel` -/
def collectProjectCloseTargets (fuel : ℕ) (projectName : String) (sessions : List SessionRecord) :
    Option (List SessionRecord) :=
  let toStop := toStop projectName sessions
  (sortRead (depthOf toStop fuel) toStop.values .empty).map Prod.fst

/-! ## What should be closed -/

/-- A session of the project, or a sub-session below one. -/
inductive Target (projectName : String) (sessions : List SessionRecord) : SessionRecord → Prop
  | own {session : SessionRecord} (hmem : session ∈ sessions)
      (hown : session.projectName = projectName) : Target projectName sessions session
  | sub {session parent : SessionRecord} (hmem : session ∈ sessions) (hsub : session.isSub = true)
      (hparent : session.parent = some parent.name) (htarget : Target projectName sessions parent) :
      Target projectName sessions session

/-- A link from a session to its parent. -/
def Links (sessions : List SessionRecord) (session parent : SessionRecord) : Prop :=
  session ∈ sessions ∧ parent ∈ sessions ∧ session.parent = some parent.name

/-- The tree is closed, children first. -/
def ClosesTree (projectName : String) (sessions : List SessionRecord) : Prop :=
  ∃ fuel targets, collectProjectCloseTargets fuel projectName sessions = some targets ∧
    targets.Nodup ∧ (∀ session, session ∈ targets ↔ Target projectName sessions session) ∧
    ((∀ session, ¬Relation.TransGen (Links sessions) session session) →
      ∀ session ∈ targets, ∀ parent ∈ targets, session.parent = some parent.name →
        [session, parent].Sublist targets)
variable {projectName : String} {sessions l : List SessionRecord} {session parent : SessionRecord}
  {m : ToStop} {changed : Bool} {name : String} {n : ℕ}

/-! ## What is collected -/

/-- A session is passed over, or it is a new one below one that is collected. -/
theorem visit_cases (m : ToStop) (changed : Bool) (session : SessionRecord) :
    visit (m, changed) session = (m, changed) ∧
      (∀ parent, session.isSub = true → session.parent = some parent → m.has parent = true →
        m.has session.name = true) ∨
    visit (m, changed) session = (m.set session.name session, true) ∧
      m.has session.name = false ∧ session.isSub = true ∧
        ∃ parent, session.parent = some parent ∧ m.has parent = true := by
  unfold visit
  cases hsub : session.isSub with
  | false => exact Or.inl ⟨rfl, nofun⟩
  | true =>
    cases hparent : session.parent with
    | none => exact Or.inl ⟨rfl, nofun⟩
    | some parent =>
      cases hhas : m.has session.name with
      | true => exact Or.inl ⟨by simp, fun _ _ _ _ => rfl⟩
      | false =>
        cases hhas' : m.has parent with
        | false =>
          refine Or.inl ⟨by simp [hhas'], fun other _ heq hother => ?_⟩
          rw [← Option.some.inj heq, hhas'] at hother
          cases hother
        | true => exact Or.inr ⟨by simp [hhas'], rfl, rfl, parent, rfl, hhas'⟩

theorem has_eq_true : m.has name = true ↔ name ∈ m.toList.map Prod.fst := by
  rw [ToStop.has, Option.isSome_iff_exists, List.mem_map]
  constructor
  · rintro ⟨session, hget⟩
    exact ⟨(name, session), OrderedMap.get?_eq_some.1 hget, rfl⟩
  · rintro ⟨⟨_, session⟩, hmem, rfl⟩
    exact ⟨session, OrderedMap.get?_eq_some.2 hmem⟩

theorem toList_set (h : m.has name = false) :
    (m.set name session).toList = m.toList ++ [(name, session)] := by
  have hnew : name ∉ m.toList.map Prod.fst := fun hmem => by
    rw [has_eq_true.2 hmem] at h
    cases h
  rw [OrderedMap.set, dif_neg hnew]

/-- A pass adds to what is collected.  If it changed nothing, nothing is left to add. -/
theorem foldl_visit (l : List SessionRecord) (m : ToStop) (changed : Bool) :
    m.toList <+: (l.foldl visit (m, changed)).1.toList ∧
    ((l.foldl visit (m, changed)).2 = true →
      changed = true ∨ m.toList.length < (l.foldl visit (m, changed)).1.toList.length) ∧
    ((l.foldl visit (m, changed)).2 = false → changed = false ∧ (l.foldl visit (m, changed)).1 = m ∧
      ∀ session ∈ l, ∀ parent, session.isSub = true → session.parent = some parent →
        m.has parent = true → m.has session.name = true) := by
  induction l generalizing m changed with
  | nil =>
    exact ⟨List.prefix_refl _, Or.inl, fun h => ⟨h, rfl, fun _ hmem => absurd hmem List.not_mem_nil⟩⟩
  | cons session l ih =>
    rw [List.foldl_cons]
    rcases visit_cases m changed session with ⟨heq, hclosed⟩ | ⟨heq, hnew, -, -⟩
    · rw [heq]
      obtain ⟨hpre, hgrows, hsame⟩ := ih m changed
      refine ⟨hpre, hgrows, fun h => ?_⟩
      obtain ⟨hchanged, hm, hrest⟩ := hsame h
      exact ⟨hchanged, hm, List.forall_mem_cons.2 ⟨hclosed, hrest⟩⟩
    · rw [heq]
      obtain ⟨hpre, -, hsame⟩ := ih (m.set session.name session) true
      rw [toList_set hnew] at hpre
      have hlength := hpre.length_le
      rw [List.length_append, List.length_singleton] at hlength
      exact ⟨(List.prefix_append _ _).trans hpre, fun _ => Or.inr (by omega),
        fun h => absurd (hsame h).1 Bool.true_eq_false_eq_False⟩
/-- What every new session below one that is collected keeps, a pass keeps. -/
theorem foldl_visit_invariant (inv : ToStop → Prop)
    (hset : ∀ m, ∀ session ∈ l, inv m → session.isSub = true →
      (∃ parent, session.parent = some parent ∧ m.has parent = true) →
        inv (m.set session.name session)) (h : inv m) :
    inv (l.foldl visit (m, changed)).1 := by
  induction l generalizing m changed with
  | nil => exact h
  | cons session l ih =>
    have ih {m : ToStop} {changed : Bool} (h : inv m) : inv (l.foldl visit (m, changed)).1 :=
      ih (fun m s hs => hset m s (List.mem_cons_of_mem _ hs)) h
    rw [List.foldl_cons]
    rcases visit_cases m changed session with ⟨heq, -⟩ | ⟨heq, -, hsub, hparent⟩
    · rw [heq]
      exact ih h
    · rw [heq]
      exact ih (hset m session (List.mem_cons_self ..) h hsub hparent)

/-- What is collected are targets, under their names. -/
def Collected (projectName : String) (sessions : List SessionRecord) (m : ToStop) : Prop :=
  ∀ name session, m.get? name = some session →
    session.name = name ∧ Target projectName sessions session

theorem Target.mem (h : Target projectName sessions session) : session ∈ sessions := by
  cases h with
  | own hmem => exact hmem
  | sub hmem => exact hmem

theorem Collected.set (h : Collected projectName sessions m)
    (htarget : Target projectName sessions session) :
    Collected projectName sessions (m.set session.name session) := by
  intro name other hget
  rw [OrderedMap.get?_set] at hget
  split at hget
  · rename_i heq
    cases hget
    exact ⟨heq.symm, htarget⟩
  · exact h name other hget

theorem collected_ownSessions : Collected projectName sessions (ownSessions projectName sessions) := by
  have hall (l : List SessionRecord) (hsub : l ⊆ sessions) (m : ToStop)
      (h : Collected projectName sessions m) : Collected projectName sessions (l.foldl
        (fun toStop session => if session.projectName = projectName then
          toStop.set session.name session else toStop) m) := by
    induction l generalizing m with
    | nil => exact h
    | cons session l ih =>
      have hrest : l ⊆ sessions := fun s hs => hsub (List.mem_cons_of_mem _ hs)
      rw [List.foldl_cons]
      refine ih hrest _ ?_
      split
      · rename_i hown
        exact h.set (.own (hsub (List.mem_cons_self ..)) hown)
      · exact h
  exact hall sessions (List.Subset.refl _) _ nofun

theorem Collected.pass (h : Collected projectName sessions m) :
    Collected projectName sessions (sessions.foldl visit (m, changed)).1 := by
  refine foldl_visit_invariant (Collected projectName sessions)
    (fun m session hmem h hsub hparent => ?_) h
  obtain ⟨parent, hparent, hhas⟩ := hparent
  obtain ⟨record, hget⟩ := Option.isSome_iff_exists.1 hhas
  obtain ⟨rfl, htarget⟩ := h parent record hget
  exact h.set (.sub hmem hsub hparent htarget)

theorem Collected.collectTree (n : ℕ) (h : Collected projectName sessions m) :
    Collected projectName sessions (collectTree sessions n m) := by
  induction n generalizing m with
  | zero => exact h
  | succ n ih =>
    rw [Sessions.collectTree]
    split
    · exact ih h.pass
    · exact h.pass

theorem has_set : ToStop.has (m.set session.name session) name =
    (decide (name = session.name) || m.has name) := by
  rw [ToStop.has, OrderedMap.get?_set]
  by_cases heq : name = session.name
  · simp [heq]
  · rw [if_neg heq, decide_eq_false heq]
    rfl

/-- The sessions of the project are collected first. -/
theorem has_ownSessions (hmem : session ∈ sessions) (hown : session.projectName = projectName) :
    (ownSessions projectName sessions).has session.name = true := by
  have hall (l : List SessionRecord) (m : ToStop)
      (h : m.has session.name = true ∨ session ∈ l) : ToStop.has (l.foldl
        (fun toStop session => if session.projectName = projectName then
          toStop.set session.name session else toStop) m) session.name = true := by
    induction l generalizing m with
    | nil => exact h.resolve_right List.not_mem_nil
    | cons other l ih =>
      rw [List.foldl_cons]
      refine ih _ ?_
      rcases h with h | h
      · refine Or.inl ?_
        split
        · rw [has_set, h, Bool.or_true]
        · exact h
      · rcases List.mem_cons.1 h with rfl | h
        · rw [if_pos hown, has_set, decide_eq_true rfl, Bool.true_or]
          exact Or.inl rfl
        · exact Or.inr h
  exact hall sessions _ (Or.inr hmem)

/-- No more is collected than there are sessions. -/
theorem Collected.length_le (h : Collected projectName sessions m) :
    m.toList.length ≤ sessions.length := by
  have hsub : m.toList.map Prod.fst ⊆ sessions.map SessionRecord.name := by
    intro name hname
    obtain ⟨session, hget⟩ := Option.isSome_iff_exists.1 (has_eq_true.2 hname)
    obtain ⟨rfl, htarget⟩ := h name session hget
    exact List.mem_map_of_mem htarget.mem
  simpa using (m.nodup.subperm hsub).length_le

/-- The passes go on until one changes nothing. -/
theorem closed_collectTree (n : ℕ) (h : Collected projectName sessions m)
    (hn : sessions.length < n + m.toList.length) :
    ∀ session ∈ sessions, ∀ parent, session.isSub = true → session.parent = some parent →
      (collectTree sessions n m).has parent = true →
        (collectTree sessions n m).has session.name = true := by
  induction n generalizing m with
  | zero => exact absurd h.length_le (by omega)
  | succ n ih =>
    obtain ⟨-, hgrows, hsame⟩ := foldl_visit sessions m false
    rw [collectTree]
    split
    · rename_i hchanged
      have hlonger := (hgrows hchanged).resolve_left Bool.false_ne_true
      exact ih h.pass (by omega)
    · rename_i hchanged
      obtain ⟨-, heq, hclosed⟩ := hsame (Bool.eq_false_iff.2 hchanged)
      rw [heq]
      exact hclosed

theorem prefix_collectTree (n : ℕ) (m : ToStop) :
    m.toList <+: (collectTree sessions n m).toList := by
  induction n generalizing m with
  | zero => exact List.prefix_refl _
  | succ n ih =>
    have hpre := (foldl_visit sessions m false).1
    rw [collectTree]
    split
    · exact hpre.trans (ih _)
    · exact hpre

/-- **What is collected** are the targets. -/
theorem get?_toStop (hnames : (sessions.map SessionRecord.name).Nodup) :
    (toStop projectName sessions).get? name = some session ↔
      session.name = name ∧ Target projectName sessions session := by
  have hcollected : Collected projectName sessions (toStop projectName sessions) :=
    collected_ownSessions.collectTree _
  refine ⟨hcollected name session, ?_⟩
  rintro ⟨rfl, htarget⟩
  have hhas : (toStop projectName sessions).has session.name = true := by
    induction htarget with
    | own hmem hown =>
      have hfirst := has_eq_true.1 (has_ownSessions hmem hown)
      exact has_eq_true.2 (((prefix_collectTree _ _).map Prod.fst).subset hfirst)
    | sub hmem hsub hparent _ ih =>
      exact closed_collectTree _ collected_ownSessions (by omega) _ hmem _ hsub hparent ih
  obtain ⟨other, hget⟩ := Option.isSome_iff_exists.1 hhas
  obtain ⟨hname, hother⟩ := hcollected _ other hget
  obtain rfl := List.inj_on_of_nodup_map hnames htarget.mem hother.mem hname.symm
  exact hget

theorem mem_toStop (hnames : (sessions.map SessionRecord.name).Nodup) :
    session ∈ (toStop projectName sessions).values ↔ Target projectName sessions session := by
  rw [OrderedMap.values, List.mem_map]
  constructor
  · rintro ⟨⟨name, session⟩, hmem, rfl⟩
    exact ((get?_toStop hnames).1 (OrderedMap.get?_eq_some.2 hmem)).2
  · intro htarget
    exact ⟨_, OrderedMap.get?_eq_some.1 ((get?_toStop hnames).2 ⟨rfl, htarget⟩), rfl⟩

theorem nodup_toStop (hnames : (sessions.map SessionRecord.name).Nodup) :
    (toStop projectName sessions).values.Nodup := by
  have hkeys : ((toStop projectName sessions).toList.map Prod.snd).map SessionRecord.name =
      (toStop projectName sessions).toList.map Prod.fst := by
    rw [List.map_map]
    refine List.map_congr_left fun ⟨name, session⟩ hmem => ?_
    exact ((get?_toStop hnames).1 (OrderedMap.get?_eq_some.2 hmem)).1
  refine List.Nodup.of_map SessionRecord.name ?_
  rw [OrderedMap.values, hkeys]
  exact (toStop projectName sessions).nodup

/-! ## Depths -/

/-- What is remembered are depths. -/
def Remembers (toStop : ToStop) (depthCache : OrderedMap String ℕ) : Prop :=
  ∀ session ∈ toStop.values, ∀ depth, depthCache.get? session.name = some depth →
    HasDepth toStop.parentOf session depth

variable {toStop : ToStop} {depthCache depthCache' : OrderedMap String ℕ} {depth fuel : ℕ}

/-- Sessions are told apart by their names. -/
def Named (toStop : ToStop) : Prop :=
  ∀ name session, toStop.get? name = some session → session.name = name

theorem Named.parentOf_mem (hparent : toStop.parentOf session = some parent) :
    parent ∈ toStop.values := by
  obtain ⟨name, -, hget⟩ := Option.bind_eq_some_iff.1 hparent
  exact List.mem_map_of_mem (OrderedMap.get?_eq_some.1 hget)

theorem Named.eq (hnamed : Named toStop) (hmem : session ∈ toStop.values)
    (hmem' : parent ∈ toStop.values) (hname : session.name = parent.name) : session = parent := by
  obtain ⟨⟨name, session⟩, hin, rfl⟩ := List.mem_map.1 hmem
  obtain ⟨⟨name', parent⟩, hin', rfl⟩ := List.mem_map.1 hmem'
  have hget := OrderedMap.get?_eq_some.2 hin
  have hget' := OrderedMap.get?_eq_some.2 hin'
  dsimp only at hname
  rw [← hnamed _ _ hget, hname, hnamed _ _ hget', hget'] at hget
  exact (Option.some.inj hget).symm

theorem Remembers.set (hnamed : Named toStop) (h : Remembers toStop depthCache)
    (hmem : session ∈ toStop.values) (hdepth : HasDepth toStop.parentOf session depth) :
    Remembers toStop (depthCache.set session.name depth) := by
  intro other hother depth' hget
  rw [OrderedMap.get?_set] at hget
  split at hget
  · rename_i hname
    cases hget
    rwa [hnamed.eq hother hmem hname]
  · exact h other hother depth' hget

/-- What `depthOf` returns is the depth. -/
theorem depthOf_sound (hnamed : Named toStop) (hmem : session ∈ toStop.values)
    (h : Remembers toStop depthCache)
    (hdepth : depthOf toStop fuel session depthCache = some (depth, depthCache')) :
    HasDepth toStop.parentOf session depth ∧ Remembers toStop depthCache' := by
  induction fuel generalizing session depth depthCache' with
  | zero => cases hdepth
  | succ fuel ih =>
    rw [depthOf] at hdepth
    split at hdepth
    · rename_i cached hget
      cases hdepth
      exact ⟨h session hmem _ hget, h⟩
    · split at hdepth
      · rename_i hparent
        cases hdepth
        exact ⟨.root hparent, h.set hnamed hmem (.root hparent)⟩
      · rename_i parent hparent
        simp only [Option.bind_eq_bind, Option.bind_eq_some_iff, Prod.exists, Option.some.injEq,
          Prod.mk.injEq] at hdepth
        obtain ⟨depth, cache, hrec, rfl, rfl⟩ := hdepth
        obtain ⟨hparentDepth, hcache⟩ := ih (Named.parentOf_mem hparent) hrec
        have hsession := HasDepth.child hparent hparentDepth
        exact ⟨hsession, hcache.set hnamed hmem hsession⟩

/-- A depth is found by a recursion that is one deeper. -/
theorem depthOf_complete (hdepth : HasDepth toStop.parentOf session depth) (hfuel : depth < fuel) :
    (depthOf toStop fuel session depthCache).isSome := by
  induction hdepth generalizing fuel with
  | root hparent =>
    cases fuel with
    | zero => exact absurd hfuel (Nat.not_lt_zero _)
    | succ fuel =>
      rw [depthOf, hparent]
      split <;> rfl
  | child hparent _ ih =>
    cases fuel with
    | zero => exact absurd hfuel (Nat.not_lt_zero _)
    | succ fuel =>
      have hparentDepth := ih (Nat.lt_of_succ_lt_succ hfuel)
      obtain ⟨⟨depth, cache⟩, hrec⟩ := Option.isSome_iff_exists.1 hparentDepth
      rw [depthOf, hparent]
      split
      · rfl
      · simp only [hrec, Option.bind_eq_bind, Option.bind_some, Option.isSome_some]

/-- Depths are what the sort reads. -/
theorem sound_depthOf (hnamed : Named toStop) (fuel : ℕ) :
    Sound (depthOf toStop fuel) (fun session => ∃ depth, HasDepth toStop.parentOf session depth)
      (Graphs.depth toStop.parentOf) (Remembers toStop) toStop.values := by
  intro session hmem depthCache depth depthCache' h hread
  obtain ⟨hdepth, h'⟩ := depthOf_sound hnamed hmem h hread
  exact ⟨⟨depth, hdepth⟩, hdepth.depth_eq.symm, h'⟩

theorem remembers_empty : Remembers toStop .empty := fun _ _ _ hget => by cases hget

/-! ## The tree -/

/-- A session and its parent among the targets. -/
def Below (projectName : String) (sessions : List SessionRecord) (session parent : SessionRecord) :
    Prop :=
  Target projectName sessions parent ∧ session.parent = some parent.name

theorem named_toStop (hnames : (sessions.map SessionRecord.name).Nodup) :
    Named (Sessions.toStop projectName sessions) :=
  fun _ _ hget => ((get?_toStop hnames).1 hget).1

theorem isParent_toStop (hnames : (sessions.map SessionRecord.name).Nodup) :
    IsParent (Sessions.toStop projectName sessions).parentOf = Below projectName sessions := by
  funext session parent
  rw [IsParent, ToStop.parentOf, Option.bind_eq_some_iff, eq_iff_iff]
  constructor
  · rintro ⟨name, hparent, hget⟩
    obtain ⟨rfl, htarget⟩ := (get?_toStop hnames).1 hget
    exact ⟨htarget, hparent⟩
  · rintro ⟨htarget, hparent⟩
    exact ⟨parent.name, hparent, (get?_toStop hnames).2 ⟨rfl, htarget⟩⟩

/-- If there are two targets, all depths are read, and there is no cycle. -/
theorem ClosesTree.not_cycle (hnames : (sessions.map SessionRecord.name).Nodup)
    (h : ClosesTree projectName sessions) :
    (∀ session other, Target projectName sessions session → Target projectName sessions other →
      session = other) ∨
      ∀ session, ¬Relation.TransGen (Below projectName sessions) session session := by
  obtain ⟨fuel, targets, hclose, -⟩ := h
  rw [collectProjectCloseTargets, Option.map_eq_some_iff] at hclose
  obtain ⟨⟨targets, depthCache⟩, hsort, rfl⟩ := hclose
  have hsound := sound_depthOf (@named_toStop projectName sessions hnames) fuel
  have hread := (sortRead_sound hsound remembers_empty hsort).2.2
  rcases Nat.lt_or_ge (Sessions.toStop projectName sessions).values.length 2 with hone | htwo
  · refine Or.inl fun session other hsession hother => ?_
    have hmem := (mem_toStop hnames).2 hsession
    have hmem' := (mem_toStop hnames).2 hother
    revert hone hmem hmem'
    match (Sessions.toStop projectName sessions).values with
    | [] => exact fun _ hmem => absurd hmem List.not_mem_nil
    | [only] => exact fun _ hmem hmem' =>
        (List.mem_singleton.1 hmem).trans (List.mem_singleton.1 hmem').symm
    | _ :: _ :: _ => exact fun hone => absurd hone (by simp)
  · refine Or.inr fun session hcycle => ?_
    obtain ⟨_, -, hlast⟩ := Relation.TransGen.tail'_iff.1 hcycle
    obtain ⟨depth, hdepth⟩ := hread htwo session ((mem_toStop hnames).2 hlast.1)
    rw [← isParent_toStop hnames] at hcycle
    exact hdepth.not_cycle hcycle

/-- One target is closed without a look at its parent. -/
theorem closesTree_of_le_one (hnames : (sessions.map SessionRecord.name).Nodup)
    (hone : ∀ session other, Target projectName sessions session →
      Target projectName sessions other → session = other) : ClosesTree projectName sessions := by
  have hclose : collectProjectCloseTargets 0 projectName sessions =
      some (Sessions.toStop projectName sessions).values := by
    have hmem := fun session => @mem_toStop projectName sessions session hnames
    have hnodup := @nodup_toStop projectName sessions hnames
    unfold collectProjectCloseTargets
    dsimp only
    match hvalues : (Sessions.toStop projectName sessions).values with
    | [] => rfl
    | [only] => rfl
    | first :: second :: rest =>
      rw [hvalues] at hmem hnodup
      have heq := hone first second ((hmem first).1 (by simp)) ((hmem second).1 (by simp))
      simp [heq] at hnodup
  refine ⟨0, _, hclose, nodup_toStop hnames, fun session => mem_toStop hnames, ?_⟩
  intro hacyclic session hmem parent hmem' hparent
  obtain rfl := hone session parent ((mem_toStop hnames).1 hmem) ((mem_toStop hnames).1 hmem')
  have hin := ((mem_toStop hnames).1 hmem).mem
  exact absurd (.single ⟨hin, hin, hparent⟩) (hacyclic session)

/-- Without a cycle every depth is found, and a session is deeper than its parent. -/
theorem closesTree_of_not_cycle (hnames : (sessions.map SessionRecord.name).Nodup)
    (hcycle : ∀ session, ¬Relation.TransGen (Below projectName sessions) session session) :
    ClosesTree projectName sessions := by
  have hnamed := @named_toStop projectName sessions hnames
  rw [← isParent_toStop hnames] at hcycle
  have hdepth : ∀ session ∈ (Sessions.toStop projectName sessions).values, ∃ depth,
      HasDepth (Sessions.toStop projectName sessions).parentOf session depth :=
    fun session hmem => exists_hasDepth
      (fun _ _ _ hparent => Named.parentOf_mem hparent) (fun session _ => hcycle session) hmem
  let key := Graphs.depth (Sessions.toStop projectName sessions).parentOf
  let fuel := ((Sessions.toStop projectName sessions).values.map key).sum + 1
  have hsound := sound_depthOf hnamed fuel
  have hreads : ∀ session ∈ (Sessions.toStop projectName sessions).values, ∀ depthCache,
      Remembers (Sessions.toStop projectName sessions) depthCache →
      (depthOf (Sessions.toStop projectName sessions) fuel session depthCache).isSome := by
    intro session hmem depthCache _
    obtain ⟨depth, hsession⟩ := hdepth session hmem
    refine depthOf_complete hsession (Nat.lt_succ_of_le ?_)
    rw [← hsession.depth_eq]
    exact List.le_sum_of_mem (List.mem_map_of_mem hmem)
  obtain ⟨⟨targets, depthCache⟩, hsort⟩ :=
    Option.isSome_iff_exists.1 (sortRead_complete hsound hreads remembers_empty)
  obtain ⟨-, htargets, -⟩ := sortRead_sound hsound remembers_empty hsort
  have hperm : targets.Perm (Sessions.toStop projectName sessions).values :=
    htargets ▸ List.perm_insertionSort _ _
  have hsorted : targets.Pairwise (Deeper key) := htargets ▸ List.pairwise_insertionSort _ _
  refine ⟨fuel, targets, by rw [collectProjectCloseTargets, hsort]; rfl,
    hperm.nodup_iff.2 (nodup_toStop hnames),
    fun session => hperm.mem_iff.trans (mem_toStop hnames),
    fun _ session hmem parent hmem' hlink => ?_⟩
  have hisParent : IsParent (Sessions.toStop projectName sessions).parentOf session parent := by
    rw [isParent_toStop hnames]
    exact ⟨(mem_toStop hnames).1 (hperm.mem_iff.1 hmem'), hlink⟩
  have hne : session ≠ parent := fun heq => hcycle session (.single (heq ▸ hisParent))
  obtain ⟨depth, hsession⟩ := hdepth session (hperm.mem_iff.1 hmem)
  obtain ⟨depth', rfl, hparent⟩ := hsession.of_parent hisParent
  refine (Ranking.pair_sublist_or hmem hmem' hne).resolve_right fun hbefore => ?_
  have hle : key session ≤ key parent :=
    (List.pairwise_cons.1 (hsorted.sublist hbefore)).1 session (List.mem_singleton_self _)
  rw [show key session = depth' + 1 from hsession.depth_eq,
    show key parent = depth' from hparent.depth_eq] at hle
  exact absurd hle (Nat.not_succ_le_self depth')

/-- **When a project is closed children first**: there is one target at most, or no target is
above itself. -/
theorem collectProjectCloseTargets_iff (projectName : String) (sessions : List SessionRecord)
    (hnames : (sessions.map SessionRecord.name).Nodup) :
    ClosesTree projectName sessions ↔
      (∀ session other, Target projectName sessions session →
        Target projectName sessions other → session = other) ∨
      ∀ session, ¬Relation.TransGen (Below projectName sessions) session session :=
  ⟨ClosesTree.not_cycle hnames,
    fun h => h.elim (closesTree_of_le_one hnames) (closesTree_of_not_cycle hnames)⟩

/-- A session of the project with a sub-session below it, and a session of another one. -/
def family : List SessionRecord :=
  [⟨"deck_proj_brain", "proj", none⟩, ⟨"deck_sub_a", "", some "deck_proj_brain"⟩,
    ⟨"deck_other_brain", "other", some "deck_sub_a"⟩]

/-- The number of links above a session, if its parent is of the family. -/
def linksAbove (session : SessionRecord) : ℕ :=
  match session.parent with
  | none => 0
  | some parent => (family.map SessionRecord.name).idxOf parent + 1

theorem collectProjectCloseTargets_iff_family : ClosesTree "proj" family :=
  (collectProjectCloseTargets_iff "proj" family (by decide)).2 (Or.inr fun session hcycle => by
    have hup : ∀ {session parent}, Relation.TransGen (Below "proj" family) session parent →
        linksAbove parent < linksAbove session := by
      intro session parent hpath
      refine Relation.TransGen.trans_induction_on hpath ?_ fun _ _ h h' => h'.trans h
      rintro session parent ⟨htarget, hparent⟩
      have hmem := htarget.mem
      simp only [family, List.mem_cons, List.not_mem_nil, or_false] at hmem
      rw [linksAbove.eq_def session, hparent]
      rcases hmem with rfl | rfl | rfl <;> decide
    exact absurd (hup hcycle) (Nat.lt_irrefl _))

/-- Two sub-sessions of the project are each other's parents. -/
def loop : List SessionRecord :=
  [⟨"deck_sub_a", "proj", some "deck_sub_b"⟩, ⟨"deck_sub_b", "proj", some "deck_sub_a"⟩]

/-- The recursion from one of them has no end. -/
theorem not_collectProjectCloseTargets : ¬∀ (projectName : String) (sessions : List SessionRecord),
    (sessions.map SessionRecord.name).Nodup → ClosesTree projectName sessions := by
  intro h
  have ha : Target "proj" loop ⟨"deck_sub_a", "proj", some "deck_sub_b"⟩ :=
    .own (by decide) rfl
  have hb : Target "proj" loop ⟨"deck_sub_b", "proj", some "deck_sub_a"⟩ :=
    .own (by decide) rfl
  rcases ClosesTree.not_cycle (by decide) (h "proj" loop (by decide)) with hone | hcycle
  · exact absurd (hone _ _ ha hb) (by decide)
  · exact hcycle _ ((Relation.TransGen.single ⟨hb, by decide⟩).tail ⟨ha, by decide⟩)

end Imcodes.Sessions
