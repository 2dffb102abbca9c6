import Imcodes.Collections.OrderedMap
import Imcodes.Collections.Ranking
import Imcodes.Graphs.Closure

/-!
# The stack of windows

`MutableDesktopWindowStack`: root windows are ordered by one counter, the children of a root by
another one. The z-index of a window is computed from its rank among the roots, or from the rank of
its root and its rank among the children of that root.

* `Sound` — what holds of a stack in which each window is always registered with the same meta.
* `getZIndex_root`, `getZIndex_child` — the z-index of a window.
* `sound_ensureWindow`, `sound_bringToFront`, `sound_removeWindow` — the invariant is kept.
-/

namespace Imcodes.Windows

open Ranking

def DESKTOP_WINDOW_STACK_BASE_Z : ℕ := 7000

def DESKTOP_WINDOW_STACK_STRIDE : ℕ := 10

structure DesktopWindowMeta where
  kind : String
  parentId : Option String := none
  serverId : Option String := none
  subId : Option String := none
  deriving DecidableEq

/-- The parent that a meta names; an empty name is none. -/
def DesktopWindowMeta.parent (window : DesktopWindowMeta) : Option String :=
  window.parentId.filter (· ≠ "")

structure InternalEntry where
  id : String
  meta' : DesktopWindowMeta
  /-- Root ordering counter. Higher = more recently raised. Children carry 0. -/
  order : ℕ
  /-- 0 for root entries; increasing for sibling children of the same parent. -/
  childOrder : ℕ
  deriving DecidableEq

structure MutableDesktopWindowStack where
  entries : OrderedMap String InternalEntry := .empty
  nextRootOrder : ℕ := 1
  nextChildOrder : ℕ := 1

def getRootId (entry : InternalEntry) : String :=
  if entry.childOrder = 0 then entry.id else entry.meta'.parentId.getD entry.id

namespace MutableDesktopWindowStack

variable (stack : MutableDesktopWindowStack)

def hasWindow (id : String) : Bool := (stack.entries.get? id).isSome

/-- Idempotent register. -/
def ensureWindow (id : String) (window : DesktopWindowMeta) : Bool × MutableDesktopWindowStack :=
  match stack.entries.get? id with
  | some existing =>
    if existing.meta' = window then (false, stack)
    else (true, { stack with entries := stack.entries.set id { existing with meta' := window } })
  | none =>
    let isChild := window.parent.any stack.hasWindow
    (true,
      { entries := stack.entries.set id
          { id
            meta' := window
            order := if isChild then 0 else stack.nextRootOrder
            childOrder := if isChild then stack.nextChildOrder else 0 }
        nextRootOrder := if isChild then stack.nextRootOrder else stack.nextRootOrder + 1
        nextChildOrder := if isChild then stack.nextChildOrder + 1 else stack.nextChildOrder })

/-- The entries that are ordered by the root counter, in the order of the map. -/
def roots : List InternalEntry :=
  stack.entries.values.filter (·.childOrder = 0)

/-- The entries that are ordered by the child counter below a root. -/
def children (rootId : String) : List InternalEntry :=
  stack.entries.values.filter fun e => e.childOrder ≠ 0 ∧ e.meta'.parentId = some rootId

/-- The greatest number of some entries and of the one to start from. -/
def highest (key : InternalEntry → ℕ) (start : InternalEntry) (entries : List InternalEntry) : ℕ :=
  entries.foldl (fun highest e => if key e > highest then key e else highest) (key start)

/-- The child's sibling order, when it is not the highest one. -/
def raiseChild (id rootId : String) (entry : InternalEntry) : Bool × MutableDesktopWindowStack :=
  if entry.childOrder ≠ 0 ∧
      entry.childOrder < highest (·.childOrder) entry (stack.children rootId) then
    (true,
      { stack with
        entries := stack.entries.set id { entry with childOrder := stack.nextChildOrder + 1 }
        nextChildOrder := stack.nextChildOrder + 1 })
  else (false, stack)

/-- The order of the owning root, when it is not the highest one. -/
def raiseRoot (rootId : String) (changed : Bool) : Bool × MutableDesktopWindowStack :=
  match stack.entries.get? rootId with
  | none => (changed, stack)
  | some root =>
    if root.order = highest (·.order) root stack.roots then (changed, stack)
    else
      (true,
        { stack with
          entries := stack.entries.set rootId { root with order := stack.nextRootOrder + 1 }
          nextRootOrder := stack.nextRootOrder + 1 })

/-- Raise the entry's root to be the frontmost root. -/
def bringToFront (id : String) : Bool × MutableDesktopWindowStack :=
  match stack.entries.get? id with
  | none => (false, stack)
  | some entry =>
    let rootId := getRootId entry
    if stack.hasWindow rootId then
      let (changed, stack) := stack.raiseChild id rootId entry
      stack.raiseRoot rootId changed
    else (false, stack)

/-- A window and what its parents lead to. -/
def collectDescendants (id : String) : List String :=
  Graphs.closure (stack.entries.values.filterMap fun e => e.meta'.parent.map (·, e.id)) id

def removeWindow (id : String) : Bool × MutableDesktopWindowStack :=
  if stack.hasWindow id then
    (true, { stack with entries := (stack.collectDescendants id).foldl .delete stack.entries })
  else (false, stack)

def computeRootRank (rootId : String) : Option ℕ :=
  rank? (·.order) (·.id) stack.roots rootId

def computeChildRank (rootId childId : String) : Option ℕ :=
  rank? (·.childOrder) (·.id) (stack.children rootId) childId

def getZIndex (id : String) : Option ℕ :=
  (stack.entries.get? id).bind fun entry =>
    let rootId := getRootId entry
    (stack.computeRootRank rootId).map fun rootRank =>
      let rootZ := DESKTOP_WINDOW_STACK_BASE_Z + (rootRank + 1) * DESKTOP_WINDOW_STACK_STRIDE
      if entry.id = rootId then rootZ
      else
        match stack.computeChildRank rootId entry.id with
        | some siblingRank => rootZ + (siblingRank + 1)
        | none => rootZ + 1

end MutableDesktopWindowStack
/-! ## Windows that keep their meta -/

/-- What holds of a stack when each window is always registered with its meta, and the parent of a
child is a root that is registered. -/
structure Sound (metas : String → DesktopWindowMeta) (stack : MutableDesktopWindowStack) :
    Prop where
  entry : ∀ {id e}, stack.entries.get? id = some e → e.id = id ∧ e.meta' = metas id
  root : ∀ {id e}, stack.entries.get? id = some e → (metas id).parent = none →
    e.childOrder = 0 ∧ e.order ≤ stack.nextRootOrder
  child : ∀ {id e p}, stack.entries.get? id = some e → (metas id).parent = some p →
    e.childOrder ≠ 0 ∧ e.childOrder ≤ stack.nextChildOrder ∧ stack.hasWindow p ∧
      (metas p).parent = none
  next : 0 < stack.nextChildOrder

variable {metas : String → DesktopWindowMeta} {stack : MutableDesktopWindowStack}
variable {id p rootId : String} {e r : InternalEntry}

theorem parent_eq_some {window : DesktopWindowMeta} :
    window.parent = some p ↔ window.parentId = some p ∧ p ≠ "" := by
  rw [DesktopWindowMeta.parent, Option.filter_eq_some_iff, decide_eq_true_eq]

theorem mem_values {m : OrderedMap String InternalEntry} :
    e ∈ m.values ↔ ∃ k, m.get? k = some e := by
  simp only [OrderedMap.values, List.mem_map, OrderedMap.get?_eq_some, Prod.exists,
    exists_eq_right]

namespace Sound

theorem mem_values (h : Sound metas stack) :
    e ∈ stack.entries.values ↔ stack.entries.get? e.id = some e := by
  rw [Windows.mem_values]
  constructor
  · rintro ⟨k, hk⟩
    rwa [(h.entry hk).1]
  · exact fun he => ⟨e.id, he⟩

theorem childOrder_eq_zero (h : Sound metas stack) (he : stack.entries.get? id = some e) :
    e.childOrder = 0 ↔ (metas id).parent = none := by
  cases hparent : (metas id).parent with
  | none => exact iff_of_true (h.root he hparent).1 rfl
  | some p => exact iff_of_false (h.child he hparent).1 nofun

theorem mem_roots (h : Sound metas stack) :
    e ∈ stack.roots ↔ stack.entries.get? e.id = some e ∧ (metas e.id).parent = none := by
  rw [MutableDesktopWindowStack.roots, List.mem_filter, h.mem_values, decide_eq_true_eq]
  exact and_congr_right fun he => h.childOrder_eq_zero he

theorem mem_children (h : Sound metas stack) :
    e ∈ stack.children p ↔ stack.entries.get? e.id = some e ∧ (metas e.id).parent = some p := by
  rw [MutableDesktopWindowStack.children, List.mem_filter, h.mem_values, decide_eq_true_eq]
  refine and_congr_right fun he => ?_
  rw [(h.entry he).2, ne_eq, h.childOrder_eq_zero he]
  constructor
  · rintro ⟨hsome, hparent⟩
    obtain ⟨q, hq⟩ := Option.ne_none_iff_exists'.1 hsome
    rw [hq, ← (parent_eq_some.1 hq).1, hparent]
  · intro hparent
    exact ⟨by rw [hparent]; nofun, (parent_eq_some.1 hparent).1⟩

theorem nodup_ids (h : Sound metas stack) : (stack.entries.values.map (·.id)).Nodup := by
  have hkeys : stack.entries.values.map (·.id) = stack.entries.toList.map Prod.fst := by
    rw [OrderedMap.values, List.map_map]
    exact List.map_congr_left fun entry hentry => (h.entry (OrderedMap.get?_eq_some.2 hentry)).1
  rw [hkeys]
  exact stack.entries.nodup

theorem nodup_roots (h : Sound metas stack) : (stack.roots.map (·.id)).Nodup :=
  h.nodup_ids.sublist (List.filter_sublist.map _)

theorem nodup_children (h : Sound metas stack) (p : String) :
    ((stack.children p).map (·.id)).Nodup :=
  h.nodup_ids.sublist (List.filter_sublist.map _)

theorem getRootId (h : Sound metas stack) (he : stack.entries.get? id = some e) :
    Windows.getRootId e = (metas id).parent.getD id := by
  rw [Windows.getRootId, (h.entry he).1, (h.entry he).2]
  cases hparent : (metas id).parent with
  | none => rw [if_pos ((h.childOrder_eq_zero he).2 hparent), Option.getD_none]
  | some p =>
    rw [if_neg (h.child he hparent).1, (parent_eq_some.1 hparent).1, Option.getD_some]

/-- The z-index of a root. -/
theorem getZIndex_root (h : Sound metas stack) (he : stack.entries.get? id = some e)
    (hroot : (metas id).parent = none) :
    ∃ rank, stack.computeRootRank id = some rank ∧ rank < stack.roots.length ∧
      stack.getZIndex id = some (DESKTOP_WINDOW_STACK_BASE_Z +
        (rank + 1) * DESKTOP_WINDOW_STACK_STRIDE) := by
  obtain ⟨rfl, -⟩ := h.entry he
  obtain ⟨rank, hrank, hlt, -⟩ :=
    @exists_rank? _ _ (·.order) _ _ _ _ h.nodup_roots (h.mem_roots.2 ⟨he, hroot⟩)
  refine ⟨rank, hrank, hlt, ?_⟩
  rw [MutableDesktopWindowStack.getZIndex, he, Option.bind_some, h.getRootId he, hroot,
    Option.getD_none]
  dsimp only
  rw [MutableDesktopWindowStack.computeRootRank, hrank, Option.map_some, if_pos rfl]

/-- The z-index of a child. -/
theorem getZIndex_child (h : Sound metas stack) (he : stack.entries.get? id = some e)
    (hchild : (metas id).parent = some p) :
    ∃ rootRank rank, stack.computeRootRank p = some rootRank ∧
      stack.computeChildRank p id = some rank ∧ rank < (stack.children p).length ∧
      stack.getZIndex id = some (DESKTOP_WINDOW_STACK_BASE_Z +
        (rootRank + 1) * DESKTOP_WINDOW_STACK_STRIDE + (rank + 1)) := by
  obtain ⟨rfl, -⟩ := h.entry he
  obtain ⟨-, -, hp, hroot⟩ := h.child he hchild
  obtain ⟨r, hr⟩ := Option.isSome_iff_exists.1 hp
  obtain ⟨rootRank, hrootRank, -, -⟩ := h.getZIndex_root hr hroot
  obtain ⟨rank, hrank, hlt, -⟩ :=
    @exists_rank? _ _ (·.childOrder) _ _ _ _ (h.nodup_children p) (h.mem_children.2 ⟨he, hchild⟩)
  refine ⟨rootRank, rank, hrootRank, hrank, hlt, ?_⟩
  have hne : e.id ≠ p := fun heq => by
    rw [heq, hroot] at hchild
    cases hchild
  rw [MutableDesktopWindowStack.getZIndex, he, Option.bind_some, h.getRootId he, hchild,
    Option.getD_some]
  dsimp only
  rw [hrootRank, Option.map_some, if_neg hne, MutableDesktopWindowStack.computeChildRank, hrank]

end Sound

/-! ## The invariant -/

theorem sound_start : Sound metas {} where
  entry h := nomatch h
  root h := nomatch h
  child h := nomatch h
  next := Nat.one_pos

/-- Other numbers for one window, and counters that have gone on. -/
theorem Sound.set (h : Sound metas stack) (he : stack.entries.get? id = some e) {e' : InternalEntry}
    {nextRootOrder nextChildOrder : ℕ} (hid : e'.id = e.id) (hmeta : e'.meta' = e.meta')
    (hzero : e'.childOrder = 0 ↔ e.childOrder = 0)
    (horder : e'.childOrder = 0 → e'.order ≤ nextRootOrder)
    (hchildOrder : e'.childOrder ≤ nextChildOrder) (hnextRoot : stack.nextRootOrder ≤ nextRootOrder)
    (hnextChild : stack.nextChildOrder ≤ nextChildOrder) :
    Sound metas { entries := stack.entries.set id e', nextRootOrder, nextChildOrder } where
  entry {id' e''} he'' := by
    dsimp only at he''
    rw [OrderedMap.get?_set] at he''
    split at he''
    · rename_i heq
      subst heq
      obtain rfl := Option.some.inj he''
      rw [hid, hmeta]
      exact h.entry he
    · exact h.entry he''
  root {id' e''} he'' hroot := by
    dsimp only at he'' ⊢
    rw [OrderedMap.get?_set] at he''
    split at he''
    · rename_i heq
      subst heq
      obtain rfl := Option.some.inj he''
      have hroot' := hzero.2 (h.root he hroot).1
      exact ⟨hroot', horder hroot'⟩
    · obtain ⟨hchild, hle⟩ := h.root he'' hroot
      exact ⟨hchild, hle.trans hnextRoot⟩
  child {id' e'' q} he'' hparent := by
    have hhas : ∀ q, stack.hasWindow q = true →
        ((stack.entries.set id e').get? q).isSome = true := fun q hq => by
      rw [OrderedMap.get?_set]
      split
      · rfl
      · exact hq
    dsimp only at he'' ⊢
    rw [OrderedMap.get?_set] at he''
    split at he''
    · rename_i heq
      subst heq
      obtain rfl := Option.some.inj he''
      obtain ⟨hne, -, hq, hroot⟩ := h.child he hparent
      exact ⟨fun hnew => hne (hzero.1 hnew), hchildOrder, hhas q hq, hroot⟩
    · obtain ⟨hne, hle, hq, hroot⟩ := h.child he'' hparent
      exact ⟨hne, hle.trans hnextChild, hhas q hq, hroot⟩
  next := h.next.trans_le hnextChild

/-- A parent that a meta names is a root that is registered. -/
def ParentRegistered (metas : String → DesktopWindowMeta) (stack : MutableDesktopWindowStack)
    (id : String) : Prop :=
  ∀ p, (metas id).parent = some p → stack.hasWindow p ∧ (metas p).parent = none

theorem sound_ensureWindow (h : Sound metas stack) (hparent : ParentRegistered metas stack id) :
    Sound metas (stack.ensureWindow id (metas id)).2 := by
  unfold MutableDesktopWindowStack.ensureWindow
  split
  · rename_i existing he
    rw [if_pos (h.entry he).2]
    exact h
  · rename_i hnew
    have hhas : ∀ (e' : InternalEntry) q, stack.hasWindow q = true →
        ((stack.entries.set id e').get? q).isSome = true := fun e' q hq => by
      rw [OrderedMap.get?_set]
      split
      · rfl
      · exact hq
    have hchild : (metas id).parent.any stack.hasWindow = true ↔ (metas id).parent ≠ none := by
      cases hp : (metas id).parent with
      | none => exact iff_of_false nofun fun h => h rfl
      | some p => exact iff_of_true (hparent p hp).1 nofun
    refine ⟨fun {id' e} he => ?_, fun {id' e} he hroot => ?_, fun {id' e p} he hp => ?_, ?_⟩
    all_goals dsimp only at *
    · rw [OrderedMap.get?_set] at he
      split at he
      · rename_i heq
        obtain rfl := Option.some.inj he
        exact ⟨heq.symm, by rw [heq]⟩
      · exact h.entry he
    · rw [OrderedMap.get?_set] at he
      split at he
      · rename_i heq
        subst heq
        obtain rfl := Option.some.inj he
        rw [if_neg fun hany => hchild.1 hany hroot, if_neg fun hany => hchild.1 hany hroot,
          if_neg fun hany => hchild.1 hany hroot]
        exact ⟨rfl, Nat.le_succ _⟩
      · obtain ⟨hzero, hle⟩ := h.root he hroot
        refine ⟨hzero, ?_⟩
        split
        · exact hle
        · exact hle.trans (Nat.le_succ _)
    · rw [OrderedMap.get?_set] at he
      split at he
      · rename_i heq
        subst heq
        obtain rfl := Option.some.inj he
        have hany := hchild.2 (by rw [hp]; nofun)
        rw [if_pos hany, if_pos hany, if_pos hany]
        obtain ⟨hregistered, hroot⟩ := hparent p hp
        exact ⟨h.next.ne', Nat.le_succ _, hhas _ p hregistered, hroot⟩
      · obtain ⟨hne, hle, hregistered, hroot⟩ := h.child he hp
        refine ⟨hne, ?_, hhas _ p hregistered, hroot⟩
        split
        · exact hle.trans (Nat.le_succ _)
        · exact hle
    · split
      · exact Nat.succ_pos _
      · exact h.next

theorem sound_raiseChild (h : Sound metas stack) (he : stack.entries.get? id = some e) :
    Sound metas (stack.raiseChild id rootId e).2 := by
  unfold MutableDesktopWindowStack.raiseChild
  split
  · rename_i hraise
    exact h.set he rfl rfl (iff_of_false (Nat.succ_ne_zero _) hraise.1)
      (fun hzero => absurd hzero (Nat.succ_ne_zero _)) (Nat.le_refl _) (Nat.le_refl _)
      (Nat.le_succ _)
  · exact h

theorem sound_raiseRoot {changed : Bool} (h : Sound metas stack)
    (hroot : (metas rootId).parent = none) :
    Sound metas (stack.raiseRoot rootId changed).2 := by
  unfold MutableDesktopWindowStack.raiseRoot
  split
  · exact h
  · rename_i r hr
    split
    · exact h
    · refine h.set hr rfl rfl Iff.rfl (fun _ => Nat.le_refl _) ?_ (Nat.le_succ _) (Nat.le_refl _)
      rw [(h.root hr hroot).1]
      exact Nat.zero_le _

/-- The root of a window is one. -/
theorem Sound.parent_getRootId (h : Sound metas stack) (he : stack.entries.get? id = some e) :
    (metas (Windows.getRootId e)).parent = none := by
  rw [h.getRootId he]
  cases hparent : (metas id).parent with
  | none => rw [Option.getD_none, hparent]
  | some p => exact (h.child he hparent).2.2.2

theorem sound_bringToFront (h : Sound metas stack) : Sound metas (stack.bringToFront id).2 := by
  unfold MutableDesktopWindowStack.bringToFront
  split
  · exact h
  · rename_i e he
    dsimp only
    split
    · exact sound_raiseRoot (sound_raiseChild h he) (h.parent_getRootId he)
    · exact h

theorem get?_foldl_delete {m : OrderedMap String InternalEntry} {ids : List String} :
    (ids.foldl .delete m).get? id = if id ∈ ids then none else m.get? id := by
  induction ids generalizing m with
  | nil => rw [if_neg List.not_mem_nil]; rfl
  | cons x ids ih =>
    rw [List.foldl_cons, ih, OrderedMap.get?_delete]
    by_cases hmem : id ∈ ids
    · rw [if_pos hmem, if_pos (List.mem_cons_of_mem _ hmem)]
    · rw [if_neg hmem]
      by_cases heq : id = x
      · rw [if_pos heq, if_pos (heq ▸ List.mem_cons_self)]
      · rw [if_neg heq, if_neg (by simp [heq, hmem])]

/-- The children of what is removed are removed. -/
theorem mem_collectDescendants (he : e ∈ stack.entries.values) (hparent : e.meta'.parent = some p)
    (hp : p ∈ stack.collectDescendants id) : e.id ∈ stack.collectDescendants id := by
  have hedge : (p, e.id) ∈ stack.entries.values.filterMap fun e => e.meta'.parent.map (·, e.id) :=
    List.mem_filterMap.2 ⟨e, he, by rw [hparent]; rfl⟩
  rw [MutableDesktopWindowStack.collectDescendants, Graphs.mem_closure] at hp ⊢
  exact hp.tail hedge

theorem sound_removeWindow (h : Sound metas stack) : Sound metas (stack.removeWindow id).2 := by
  unfold MutableDesktopWindowStack.removeWindow
  split
  · have hkept : ∀ {id' e}, ((stack.collectDescendants id).foldl .delete stack.entries).get? id' =
        some e → id' ∉ stack.collectDescendants id ∧ stack.entries.get? id' = some e := by
      intro id' e he
      rw [get?_foldl_delete] at he
      split at he
      · cases he
      · rename_i hmem
        exact ⟨hmem, he⟩
    refine ⟨fun he => h.entry (hkept he).2, fun he hroot => h.root (hkept he).2 hroot,
      fun {id' e p} he hparent => ?_, h.next⟩
    obtain ⟨hmem, he⟩ := hkept he
    obtain ⟨hne, hle, hregistered, hroot⟩ := h.child he hparent
    refine ⟨hne, hle, ?_, hroot⟩
    have hp : p ∉ stack.collectDescendants id := fun hp => by
      have hdescendant := mem_collectDescendants (mem_values.2 ⟨id', he⟩)
        (by rw [(h.entry he).2]; exact hparent) hp
      rw [(h.entry he).1] at hdescendant
      exact hmem hdescendant
    rw [MutableDesktopWindowStack.hasWindow, get?_foldl_delete, if_neg hp]
    exact hregistered
  · exact h

end Imcodes.Windows
