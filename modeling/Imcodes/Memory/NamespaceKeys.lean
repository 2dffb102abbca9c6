import Imcodes.Collections.Joined
import Imcodes.Queue.Types

/-!
# Keys of namespaces and targets

The rows of the memory are keyed by texts: the scope and four free identifiers of a namespace, and
for a target its kind and its session, trimmed and joined by `::`.

* `exists_sameKey_iff` — which namespaces share their key with another.
* `exists_sameTargetKey_iff` — which targets do.
* `parseNamespaceKey_iff` — which namespaces come back when their key is parsed.
* `ownKeys_iff` — all of it.
-/

namespace Imcodes.Memory

open Queue (isJsSpace jsTrim)
open Joined (Loose Trimmed Starts Ends)

/-! ## Namespaces and targets -/

inductive MemoryScope
  | userPrivate | personal | projectShared | workspaceShared | orgShared
deriving DecidableEq

def MemoryScope.text : MemoryScope → String
  | .userPrivate => "user_private"
  | .personal => "personal"
  | .projectShared => "project_shared"
  | .workspaceShared => "workspace_shared"
  | .orgShared => "org_shared"

inductive ContextTargetKind
  | session | project
deriving DecidableEq

def ContextTargetKind.text : ContextTargetKind → String
  | .session => "session"
  | .project => "project"

structure ContextNamespace where
  scope : MemoryScope
  projectId : Option String := none
  userId : Option String := none
  workspaceId : Option String := none
  enterpriseId : Option String := none
deriving DecidableEq

structure ContextTargetRef where
  (namespace' : ContextNamespace)
  kind : ContextTargetKind
  sessionName : Option String := none
deriving DecidableEq

/-- `value?.trim() ?? ''` -/
def joinPart (value : Option String) : String := (value.map jsTrim).getD ""

def serializeContextNamespace (n : ContextNamespace) : String :=
  "::".intercalate [n.scope.text, joinPart n.enterpriseId, joinPart n.workspaceId,
    joinPart n.userId, joinPart n.projectId]

def serializeContextTarget (target : ContextTargetRef) : String :=
  "::".intercalate [serializeContextNamespace target.namespace', target.kind.text,
    joinPart target.sessionName]

/-- What a key is parsed to; `none` for `undefined`. -/
structure ParsedNamespace where
  scope : Option String
  enterpriseId : Option String
  workspaceId : Option String
  userId : Option String
  projectId : Option String
deriving DecidableEq

/-- `value || undefined` -/
def orUndefined (value : Option String) : Option String := value.filter (· ≠ "")

def parseNamespaceKey (namespaceKey : String) : ParsedNamespace :=
  let parts := (Joined.split ':' namespaceKey.toList).map String.ofList
  { scope := parts[0]?
    enterpriseId := orUndefined parts[1]?
    workspaceId := orUndefined parts[2]?
    userId := orUndefined parts[3]?
    projectId := parts[4]? }

/-! ## What a key says -/

namespace ContextNamespace

/-- The same scope and the same trimmed identifiers. -/
def Same (n n' : ContextNamespace) : Prop :=
  n.scope = n'.scope ∧ joinPart n.enterpriseId = joinPart n'.enterpriseId ∧
    joinPart n.workspaceId = joinPart n'.workspaceId ∧ joinPart n.userId = joinPart n'.userId ∧
      joinPart n.projectId = joinPart n'.projectId

/-- The trimmed identifiers, in the order of the key. -/
def parts (n : ContextNamespace) : List (List Char) :=
  [(joinPart n.enterpriseId).toList, (joinPart n.workspaceId).toList, (joinPart n.userId).toList,
    (joinPart n.projectId).toList]

/-- The trimmed identifiers, as a parsed key has them. -/
def trimmed (n : ContextNamespace) : ParsedNamespace where
  scope := some n.scope.text
  enterpriseId := orUndefined (some (joinPart n.enterpriseId))
  workspaceId := orUndefined (some (joinPart n.workspaceId))
  userId := orUndefined (some (joinPart n.userId))
  projectId := some (joinPart n.projectId)

end ContextNamespace

/-- The same namespace, kind and trimmed session. -/
def ContextTargetRef.Same (target target' : ContextTargetRef) : Prop :=
  target.namespace'.Same target'.namespace' ∧ target.kind = target'.kind ∧
    joinPart target.sessionName = joinPart target'.sessionName

/-- A text without blanks at its ends. -/
abbrev IsTrimmed (text : List Char) : Prop := Trimmed isJsSpace text

variable {n n' : ContextNamespace} {target target' : ContextTargetRef} {text : List Char}

theorem isTrimmed_joinPart (value : Option String) : IsTrimmed (joinPart value).toList := by
  cases value with
  | none => exact ⟨Joined.starts_nil, Joined.ends_nil⟩
  | some value =>
    have htext : (joinPart (some value)).toList =
        (value.toList.dropWhile isJsSpace).rdropWhile isJsSpace := String.toList_ofList
    rw [htext]
    exact Joined.trimmed_trim

theorem joinPart_ofList (h : IsTrimmed text) :
    joinPart (some (String.ofList text)) = String.ofList text := by
  rw [joinPart, Option.map_some, Option.getD_some, jsTrim, String.toList_ofList, h.trim]

theorem isTrimmed_parts : ∀ part ∈ n.parts, IsTrimmed part := by
  intro part hpart
  simp only [ContextNamespace.parts, List.mem_cons, List.not_mem_nil, or_false] at hpart
  rcases hpart with rfl | rfl | rfl | rfl <;> exact isTrimmed_joinPart _

theorem not_blank_colon : isJsSpace ':' = false := by decide

/-- What the key of a namespace is joined from. -/
theorem toList_key : (serializeContextNamespace n).toList =
    n.scope.text.toList ++ ':' :: ':' :: Joined.join ':' n.parts := by
  rw [serializeContextNamespace, String.toList_intercalate]
  exact Joined.join_cons_cons

theorem toList_targetKey : (serializeContextTarget target).toList =
    target.namespace'.scope.text.toList ++ ':' :: ':' :: (Joined.join ':' target.namespace'.parts ++
      ':' :: ':' :: (target.kind.text.toList ++ ':' :: ':' :: (joinPart target.sessionName).toList)) := by
  have hjoin : (serializeContextTarget target).toList =
      Joined.join ':' [(serializeContextNamespace target.namespace').toList,
        target.kind.text.toList, (joinPart target.sessionName).toList] := by
    rw [serializeContextTarget, String.toList_intercalate]
    rfl
  rw [hjoin, Joined.join_cons_cons, Joined.join_cons_cons, Joined.join_singleton, toList_key]
  simp only [List.append_assoc, List.cons_append]

theorem colon_not_mem_scope (scope : MemoryScope) : ':' ∉ scope.text.toList := by
  cases scope <;> decide

theorem colon_not_mem_kind (kind : ContextTargetKind) : ':' ∉ kind.text.toList := by
  cases kind <;> decide

theorem MemoryScope.text_inj {scope scope' : MemoryScope} (h : scope.text = scope'.text) :
    scope = scope' := by
  revert h
  cases scope <;> cases scope' <;> decide

theorem ContextTargetKind.text_inj {kind kind' : ContextTargetKind} (h : kind.text = kind'.text) :
    kind = kind' := by
  revert h
  cases kind <;> cases kind' <;> decide

theorem same_iff : n.Same n' ↔ n.scope = n'.scope ∧ n.parts = n'.parts := by
  simp only [ContextNamespace.Same, ContextNamespace.parts, List.cons.injEq, String.toList_inj,
    and_true]

/-- Keys are the same for one scope and one text of identifiers. -/
theorem key_eq_iff : serializeContextNamespace n = serializeContextNamespace n' ↔
    n.scope = n'.scope ∧ Joined.join ':' n.parts = Joined.join ':' n'.parts := by
  rw [← String.toList_inj, toList_key, toList_key]
  constructor
  · intro h
    obtain ⟨hscope, hjoin⟩ := Joined.append_pair_inj (colon_not_mem_scope _)
      (colon_not_mem_scope _) h
    exact ⟨MemoryScope.text_inj (String.toList_inj.1 hscope), hjoin⟩
  · rintro ⟨hscope, hjoin⟩
    rw [hscope, hjoin]

/-- A namespace of trimmed identifiers. -/
theorem exists_parts (scope : MemoryScope) {enterprise workspace user project : List Char}
    (h : ∀ part ∈ [enterprise, workspace, user, project], IsTrimmed part) :
    ∃ n : ContextNamespace, n.scope = scope ∧ n.parts = [enterprise, workspace, user, project] := by
  have hpart (part : List Char) (hmem : part ∈ [enterprise, workspace, user, project]) :
      (joinPart (some (String.ofList part))).toList = part := by
    rw [joinPart_ofList (h part hmem), String.toList_ofList]
  refine ⟨{ scope
            projectId := some (String.ofList project)
            userId := some (String.ofList user)
            workspaceId := some (String.ofList workspace)
            enterpriseId := some (String.ofList enterprise) }, rfl, ?_⟩
  rw [ContextNamespace.parts]
  dsimp only
  rw [hpart _ (by simp), hpart _ (by simp), hpart _ (by simp), hpart _ (by simp)]

/-! ## Shared keys -/

/-- **Which namespaces share their key**: those of loose identifiers. -/
theorem exists_sameKey_iff :
    (∃ n', ¬ n'.Same n ∧ serializeContextNamespace n' = serializeContextNamespace n) ↔
      Loose ':' isJsSpace n.parts := by
  constructor
  · rintro ⟨n', hother, hkey⟩
    obtain ⟨hscope, hjoin⟩ := key_eq_iff.1 hkey
    have hlength : n.parts.length ≤ n'.parts.length := Nat.le_refl 4
    refine Joined.loose_of_join_eq not_blank_colon (List.cons_ne_nil _ _) hlength
      isTrimmed_parts hjoin.symm fun hparts => hother ?_
    exact same_iff.2 ⟨hscope, hparts.symm⟩
  · intro h
    obtain ⟨parts, hlength, htrimmed, hjoin, hne⟩ := h.exists_join_eq not_blank_colon isTrimmed_parts
    match parts, hlength with
    | [enterprise, workspace, user, project], _ =>
      obtain ⟨n', hscope, hparts⟩ := exists_parts n.scope htrimmed
      refine ⟨n', fun hsame => ?_, ?_⟩
      · exact hne (hparts.symm.trans (same_iff.1 hsame).2)
      · exact key_eq_iff.2 ⟨hscope, by rw [hparts, hjoin]⟩

/-- After the pair of colons before it, the session has the name of a kind between two pairs. -/
def NamesKind (session : List Char) : Prop :=
  ∃ before after, ∃ kind : ContextTargetKind,
    ':' :: ':' :: session =
      before ++ ':' :: ':' :: (kind.text.toList ++ ':' :: ':' :: after) ∧
      Ends isJsSpace before ∧ Starts isJsSpace after

theorem isTrimmed_kind (kind : ContextTargetKind) : IsTrimmed kind.text.toList := by
  cases kind <;> exact Joined.trimmed_of_trim (by decide)

/-- The kind of one text further in than that of another. -/
theorem kind_shift {kind kind' : ContextTargetKind} {session session' more : List Char}
    (h : ':' :: ':' :: (kind.text.toList ++ ':' :: ':' :: session) =
      more ++ ':' :: ':' :: (kind'.text.toList ++ ':' :: ':' :: session')) (hmore : more ≠ []) :
    ∃ between, more = ':' :: ':' :: (kind.text.toList ++ between) ∧
      ':' :: ':' :: session = between ++ ':' :: ':' :: (kind'.text.toList ++ ':' :: ':' :: session') := by
  match more, hmore, h with
  | [_], _, h =>
    obtain ⟨rfl, hfirst⟩ := List.cons.inj h
    have hkind := congrArg List.head? (List.cons.inj hfirst).2
    revert hkind
    cases kind <;> simp [ContextTargetKind.text]
  | _ :: _ :: more, _, h =>
    obtain ⟨rfl, hfirst⟩ := List.cons.inj h
    obtain ⟨rfl, hrest⟩ := List.cons.inj hfirst
    rcases List.append_eq_append_iff.1 hrest with ⟨between, rfl, hbetween⟩ | ⟨inside, hinside, heq⟩
    · exact ⟨between, rfl, hbetween⟩
    · cases inside with
      | nil =>
        rw [List.append_nil] at hinside
        exact ⟨[], by rw [hinside, List.append_nil], by simpa using heq.symm⟩
      | cons c inside =>
        obtain ⟨rfl, -⟩ := List.cons.inj heq
        refine absurd ?_ (colon_not_mem_kind kind)
        rw [hinside]
        simp

/-- Keys of targets are the same for one scope and one text of what follows. -/
theorem targetKey_eq_iff : serializeContextTarget target = serializeContextTarget target' ↔
    target.namespace'.scope = target'.namespace'.scope ∧
      Joined.join ':' target.namespace'.parts ++ ':' :: ':' ::
          (target.kind.text.toList ++ ':' :: ':' :: (joinPart target.sessionName).toList) =
        Joined.join ':' target'.namespace'.parts ++ ':' :: ':' ::
          (target'.kind.text.toList ++ ':' :: ':' :: (joinPart target'.sessionName).toList) := by
  rw [← String.toList_inj, toList_targetKey, toList_targetKey]
  constructor
  · intro h
    obtain ⟨hscope, hrest⟩ := Joined.append_pair_inj (colon_not_mem_scope _)
      (colon_not_mem_scope _) h
    exact ⟨MemoryScope.text_inj (String.toList_inj.1 hscope), hrest⟩
  · rintro ⟨hscope, hrest⟩
    rw [hscope, hrest]

/-- A target that shares its key with another is loose or names a kind. -/
theorem loose_or_namesKind (hother : ¬ target'.Same target)
    (hkey : serializeContextTarget target' = serializeContextTarget target) :
    Loose ':' isJsSpace target.namespace'.parts ∨
      NamesKind (joinPart target.sessionName).toList := by
  obtain ⟨hscope, hrest⟩ := targetKey_eq_iff.1 hkey
  have hends := Joined.ends_join not_blank_colon (isTrimmed_parts (n := target.namespace'))
  have hends' := Joined.ends_join not_blank_colon (isTrimmed_parts (n := target'.namespace'))
  by_cases hjoin : Joined.join ':' target'.namespace'.parts = Joined.join ':' target.namespace'.parts
  · rw [hjoin, List.append_cancel_left_eq, List.cons.injEq, List.cons.injEq] at hrest
    obtain ⟨hkind, hsession⟩ := Joined.append_pair_inj (colon_not_mem_kind _)
      (colon_not_mem_kind _) hrest.2.2
    refine Or.inl (exists_sameKey_iff.1 ⟨target'.namespace', fun hsame => hother ?_,
      key_eq_iff.2 ⟨hscope, hjoin⟩⟩)
    exact ⟨hsame, ContextTargetKind.text_inj (String.toList_inj.1 hkind),
      String.toList_inj.1 hsession⟩
  have hmoreNe {more : List Char} {a b : List Char} (h : a = b ++ more) (hab : b ≠ a) : more ≠ [] := by
    rintro rfl
    exact hab (by rw [h, List.append_nil])
  rcases List.append_eq_append_iff.1 hrest with ⟨more, hmore, hlater⟩ | ⟨more, hmore, hlater⟩
  · -- the identifiers of the other target end first: its kind is in those of this one
    obtain ⟨between, rfl, -⟩ := kind_shift hlater (hmoreNe hmore hjoin)
    have hparts : target'.namespace'.parts ≠ [] := List.cons_ne_nil _ _
    have hpart : IsTrimmed (target'.kind.text.toList ++ between) := by
      refine ⟨(isTrimmed_kind _).starts.append fun h => absurd h ?_, ?_⟩
      · cases target'.kind <;> decide
      · rw [hmore] at hends
        exact hends.after_pair
    have htrimmed : ∀ part ∈ target'.namespace'.parts ++ [target'.kind.text.toList ++ between],
        IsTrimmed part := by
      intro part hmem
      rcases List.mem_append.1 hmem with hmem | hmem
      · exact isTrimmed_parts part hmem
      · rwa [List.mem_singleton.1 hmem]
    have hlength : target.namespace'.parts.length ≤
        (target'.namespace'.parts ++ [target'.kind.text.toList ++ between]).length :=
      Nat.le_succ 4
    rw [← Joined.join_concat hparts] at hmore
    refine Or.inl (Joined.loose_of_join_eq not_blank_colon (List.cons_ne_nil _ _) hlength htrimmed
      hmore fun heq => absurd (congrArg List.length heq) ?_)
    simp [ContextNamespace.parts]
  · obtain ⟨between, rfl, hsession⟩ := kind_shift hlater (hmoreNe hmore fun h => hjoin h.symm)
    refine Or.inr ⟨between, (joinPart target'.sessionName).toList, target'.kind, hsession, ?_,
      (isTrimmed_joinPart _).starts⟩
    rw [hmore] at hends'
    exact hends'.after_pair.right

/-- The text of a target whose session names a kind, in parts of which the fourth ends with the
kind of the target. -/
theorem join_named {enterprise workspace user project kind kind' session before after : List Char}
    (h : ':' :: ':' :: session = before ++ ':' :: ':' :: (kind' ++ ':' :: ':' :: after)) :
    Joined.join ':' [enterprise ++ ':' :: ':' :: workspace, user, project, kind ++ before] ++
        ':' :: ':' :: (kind' ++ ':' :: ':' :: after) =
      Joined.join ':' [enterprise, workspace, user, project] ++
        ':' :: ':' :: (kind ++ ':' :: ':' :: session) := by
  simp only [Joined.join_cons_cons, Joined.join_singleton, List.append_assoc, List.cons_append, h]

/-- A session that names a kind gives the key of a target of that kind, whose identifiers end with
its own kind. -/
theorem exists_of_namesKind (h : NamesKind (joinPart target.sessionName).toList) :
    ∃ target', ¬ target'.Same target ∧
      serializeContextTarget target' = serializeContextTarget target := by
  obtain ⟨before, after, kind, hsession, hbefore, hafter⟩ := h
  obtain ⟨enterprise, workspace, user, project, hparts⟩ : ∃ enterprise workspace user project,
      target.namespace'.parts = [enterprise, workspace, user, project] := ⟨_, _, _, _, rfl⟩
  have htrimmed := isTrimmed_parts (n := target.namespace')
  simp only [hparts, List.forall_mem_cons, List.not_mem_nil] at htrimmed
  obtain ⟨henterprise, hworkspace, huser, hproject, -⟩ := htrimmed
  have hmerged : IsTrimmed (enterprise ++ ':' :: ':' :: workspace) :=
    ⟨henterprise.starts.append fun _ => Joined.starts_cons not_blank_colon,
      (Joined.ends_append (List.cons_ne_nil _ _)).2
        ((hworkspace.ends.cons not_blank_colon).cons not_blank_colon)⟩
  have hkind : IsTrimmed (target.kind.text.toList ++ before) := by
    refine ⟨(isTrimmed_kind _).starts.append fun h => absurd h ?_,
      Ends.append (fun _ => (isTrimmed_kind _).ends) hbefore⟩
    cases target.kind <;> decide
  have hafterTrimmed : IsTrimmed after := by
    refine ⟨hafter, ?_⟩
    have hends := ((isTrimmed_joinPart target.sessionName).ends.cons not_blank_colon).cons
      not_blank_colon
    rw [hsession] at hends
    exact hends.after_pair.after_pair
  obtain ⟨other, hscope, hother⟩ := exists_parts target.namespace'.scope
    (List.forall_mem_cons.2 ⟨hmerged, List.forall_mem_cons.2 ⟨huser, List.forall_mem_cons.2
      ⟨hproject, List.forall_mem_singleton.2 hkind⟩⟩⟩)
  refine ⟨{ namespace' := other, kind, sessionName := some (String.ofList after) },
    fun hsame => ?_, targetKey_eq_iff.2 ⟨hscope, ?_⟩⟩
  · have hfirst := (same_iff.1 hsame.1).2
    rw [hother, hparts] at hfirst
    have hlength := congrArg List.length (List.cons.inj hfirst).1
    simp at hlength
  · rw [hother, hparts, joinPart_ofList hafterTrimmed, String.toList_ofList]
    exact join_named hsession

/-- **Which targets share their key**: those of loose identifiers, or whose session names a kind. -/
theorem exists_sameTargetKey_iff :
    (∃ target', ¬ target'.Same target ∧
        serializeContextTarget target' = serializeContextTarget target) ↔
      Loose ':' isJsSpace target.namespace'.parts ∨
        NamesKind (joinPart target.sessionName).toList := by
  constructor
  · rintro ⟨target', hother, hkey⟩
    exact loose_or_namesKind hother hkey
  · rintro (h | h)
    · obtain ⟨n', hother, hkey⟩ := exists_sameKey_iff.2 h
      obtain ⟨hscope, hjoin⟩ := key_eq_iff.1 hkey
      refine ⟨{ target with namespace' := n' }, fun hsame => hother hsame.1,
        targetKey_eq_iff.2 ⟨hscope, ?_⟩⟩
      rw [hjoin]
    · exact exists_of_namesKind h

/-! ## Parsing -/

/-- The identifiers before the last have no pair of colons, also with the first one after them, and
the last has none. -/
structure ComesBack (n : ContextNamespace) : Prop where
  enterprise : ¬ [':', ':'] <:+: (joinPart n.enterpriseId).toList ++ [':']
  workspace : ¬ [':', ':'] <:+: (joinPart n.workspaceId).toList ++ [':']
  user : ¬ [':', ':'] <:+: (joinPart n.userId).toList ++ [':']
  project : ¬ [':', ':'] <:+: (joinPart n.projectId).toList

theorem split_scope {scope : MemoryScope} :
    Joined.split ':' (scope.text.toList ++ ':' :: ':' :: text) =
      scope.text.toList :: Joined.split ':' text :=
  Joined.split_pair (by cases scope <;> decide)

/-- A shorter text is no identifier. -/
theorem ne_of_shorter {first : List Char} {part : String} (h : first.length < part.toList.length) :
    orUndefined (some (String.ofList first)) ≠ orUndefined (some part) := by
  intro heq
  have hpart : part ≠ "" := by
    rintro rfl
    exact absurd h (Nat.not_lt_zero _)
  have hsome : orUndefined (some part) = some part := by
    rw [orUndefined, Option.filter_some, if_pos (by simpa using hpart)]
  rw [hsome, orUndefined] at heq
  rw [← Option.some.inj (Option.eq_some_of_filter_eq_some heq), String.toList_ofList] at h
  exact absurd h (Nat.lt_irrefl _)

/-- **Which namespaces come back** when their key is parsed. -/
theorem parseNamespaceKey_iff :
    parseNamespaceKey (serializeContextNamespace n) = n.trimmed ↔ ComesBack n := by
  rw [parseNamespaceKey, toList_key, split_scope, ContextNamespace.parts, Joined.join_cons_cons,
    Joined.join_cons_cons, Joined.join_cons_cons, Joined.join_singleton]
  constructor
  · intro h
    have henterprise : ¬ [':', ':'] <:+: (joinPart n.enterpriseId).toList ++ [':'] := by
      intro hpair
      obtain ⟨first, more, hsplit, hlength⟩ := Joined.split_pair_shorter hpair
      rw [hsplit] at h
      exact ne_of_shorter hlength (congrArg ParsedNamespace.enterpriseId h)
    rw [Joined.split_pair henterprise] at h
    have hworkspace : ¬ [':', ':'] <:+: (joinPart n.workspaceId).toList ++ [':'] := by
      intro hpair
      obtain ⟨first, more, hsplit, hlength⟩ := Joined.split_pair_shorter hpair
      rw [hsplit] at h
      exact ne_of_shorter hlength (congrArg ParsedNamespace.workspaceId h)
    rw [Joined.split_pair hworkspace] at h
    have huser : ¬ [':', ':'] <:+: (joinPart n.userId).toList ++ [':'] := by
      intro hpair
      obtain ⟨first, more, hsplit, hlength⟩ := Joined.split_pair_shorter hpair
      rw [hsplit] at h
      exact ne_of_shorter hlength (congrArg ParsedNamespace.userId h)
    rw [Joined.split_pair huser] at h
    refine ⟨henterprise, hworkspace, huser, fun hpair => ?_⟩
    obtain ⟨first, more, hsplit, hlength⟩ := Joined.split_last_shorter hpair
    rw [hsplit] at h
    have hproject := congrArg (fun parsed => orUndefined parsed.projectId) h
    exact ne_of_shorter hlength hproject
  · intro h
    rw [Joined.split_pair h.enterprise, Joined.split_pair h.workspace, Joined.split_pair h.user,
      Joined.split_last h.project]
    simp [ContextNamespace.trimmed]

/-! ## Own keys -/

/-- **Keys of a target's own**: no other namespace has the key of its namespace, no other target
its key, and a namespace with a project comes back when its key is parsed. This is so if the
identifiers are not loose, the session names no kind, and, with a project, there are no pairs of
colons. -/
theorem ownKeys_iff (target : ContextTargetRef) :
    ((∀ n, ¬ n.Same target.namespace' →
          serializeContextNamespace n ≠ serializeContextNamespace target.namespace') ∧
        (∀ target', ¬ target'.Same target →
          serializeContextTarget target' ≠ serializeContextTarget target) ∧
        (joinPart target.namespace'.projectId ≠ "" →
          parseNamespaceKey (serializeContextNamespace target.namespace') =
            target.namespace'.trimmed)) ↔
      ¬ Loose ':' isJsSpace target.namespace'.parts ∧
        ¬ NamesKind (joinPart target.sessionName).toList ∧
          (joinPart target.namespace'.projectId ≠ "" → ComesBack target.namespace') := by
  have hnamespaces := not_congr (@exists_sameKey_iff target.namespace')
  have htargets := not_congr (@exists_sameTargetKey_iff target)
  simp only [not_exists, not_and, not_or] at hnamespaces htargets
  rw [hnamespaces, htargets, parseNamespaceKey_iff]
  constructor
  · rintro ⟨hloose, ⟨-, hnames⟩, hback⟩
    exact ⟨hloose, hnames, hback⟩
  · rintro ⟨hloose, hnames, hback⟩
    exact ⟨hloose, ⟨hloose, hnames⟩, hback⟩

/-- An enterprise with a pair of colons, and the same colons between an enterprise and a workspace. -/
theorem not_ownKeys : ¬ ∀ target : ContextTargetRef,
    (∀ n, ¬ n.Same target.namespace' →
        serializeContextNamespace n ≠ serializeContextNamespace target.namespace') ∧
      (∀ target', ¬ target'.Same target →
        serializeContextTarget target' ≠ serializeContextTarget target) ∧
      (joinPart target.namespace'.projectId ≠ "" →
        parseNamespaceKey (serializeContextNamespace target.namespace') =
          target.namespace'.trimmed) := by
  intro h
  refine (h ⟨⟨.personal, some "p", some "u", none, some "a::b"⟩, .project, none⟩).1
    ⟨.personal, some "u::p", none, some "b", some "a"⟩ (fun hsame => ?_) ?_
  · exact absurd hsame.2.1 (by decide +kernel)
  · decide +kernel

end Imcodes.Memory
