import Imcodes.Windows.Stack

/-!
# Windows are stacked as they are used

The z-indexes of a stack put every child above its root, and raising a window puts it in front. The
two counters can give one number to two windows: a raise leaves its number as the next one to be
given. A raised window with the number of a later one is taken to be in front already.

* `frontmost_bringToFront_iff` — raising works as long as there is no such tie.
* `bringToFront_changed_iff` — what a raise answers.
* `windows_ordered_iff` — every run.
-/

namespace Imcodes.Windows

open Ranking MutableDesktopWindowStack

/-! ## What is expected of a stack -/

/-- A window is above another one. -/
def Above (stack : MutableDesktopWindowStack) (a b : String) : Prop :=
  ∃ za zb, stack.getZIndex a = some za ∧ stack.getZIndex b = some zb ∧ zb < za

/-- The root of the group of a window. -/
def rootOf (metas : String → DesktopWindowMeta) (id : String) : String :=
  (metas id).parent.getD id

/-- No root has more than nine children. -/
def AtMostNine (metas : String → DesktopWindowMeta) (stack : MutableDesktopWindowStack) : Prop :=
  ∀ p, (stack.entries.toList.filter fun e => (metas e.1).parent = some p).length ≤ 9

/-- The z-indexes are distinct, and children are above their roots. -/
structure Ordered (metas : String → DesktopWindowMeta) (stack : MutableDesktopWindowStack) :
    Prop where
  registered : ∀ id, stack.hasWindow id → (stack.getZIndex id).isSome
  distinct : ∀ id id', stack.hasWindow id → stack.hasWindow id' →
    stack.getZIndex id = stack.getZIndex id' → id = id'
  child : ∀ id p, stack.hasWindow id → (metas id).parent = some p → Above stack id p

/-- A window is in front: no other group is above its root, and no sibling above it. -/
structure Frontmost (metas : String → DesktopWindowMeta) (stack : MutableDesktopWindowStack)
    (id : String) : Prop where
  root : ∀ w, stack.hasWindow w → rootOf metas w ≠ rootOf metas id →
    ¬ Above stack w (rootOf metas id)
  sibling : ∀ w, stack.hasWindow w → (metas id).parent ≠ none →
    (metas w).parent = (metas id).parent → ¬ Above stack w id

/-! ## Z-indexes -/

variable {metas : String → DesktopWindowMeta} {stack : MutableDesktopWindowStack}
variable {id id' p w rootId : String} {e r : InternalEntry} {key : InternalEntry → ℕ}

theorem hasWindow_iff : stack.hasWindow id = true ↔ ∃ e, stack.entries.get? id = some e :=
  Option.isSome_iff_exists

theorem Sound.length_children_le (h : Sound metas stack) (hnine : AtMostNine metas stack)
    (p : String) : (stack.children p).length ≤ 9 := by
  refine Nat.le_trans (Nat.le_of_eq ?_) (hnine p)
  rw [children, OrderedMap.values, List.filter_map, List.length_map]
  refine congrArg List.length (List.filter_congr fun entry hentry => ?_)
  obtain ⟨k, e⟩ := entry
  have he := OrderedMap.get?_eq_some.2 hentry
  obtain ⟨rfl, -⟩ := h.entry he
  have hmem := @Sound.mem_children metas stack p e h
  rw [children, List.mem_filter, h.mem_values, and_congr_right_iff] at hmem
  exact Bool.eq_iff_iff.2 ((hmem he).trans decide_eq_true_iff.symm)

/-- The ranks that make up a z-index; a root has none among its children. -/
theorem exists_ranks (h : Sound metas stack) (hnine : AtMostNine metas stack)
    (hid : stack.hasWindow id) :
    ∃ rootRank offset, stack.computeRootRank (rootOf metas id) = some rootRank ∧ offset ≤ 9 ∧
      stack.getZIndex id = some (DESKTOP_WINDOW_STACK_BASE_Z +
        (rootRank + 1) * DESKTOP_WINDOW_STACK_STRIDE + offset) ∧
      ((metas id).parent = none → offset = 0) ∧
      ∀ p, (metas id).parent = some p →
        ∃ rank, stack.computeChildRank p id = some rank ∧ offset = rank + 1 := by
  obtain ⟨e, he⟩ := hasWindow_iff.1 hid
  unfold rootOf
  cases hparent : (metas id).parent with
  | none =>
    obtain ⟨rank, hrank, -, hz⟩ := h.getZIndex_root he hparent
    exact ⟨rank, 0, hrank, Nat.zero_le _, hz, fun _ => rfl, nofun⟩
  | some p =>
    obtain ⟨rootRank, rank, hrootRank, hrank, hlt, hz⟩ := h.getZIndex_child he hparent
    have hle := h.length_children_le hnine p
    refine ⟨rootRank, rank + 1, hrootRank, by omega, hz, nofun, fun q hq => ?_⟩
    obtain rfl := Option.some.inj hq
    exact ⟨rank, hrank, rfl⟩

/-- The root of a registered window is registered. -/
theorem hasWindow_rootOf (h : Sound metas stack) (hid : stack.hasWindow id) :
    stack.hasWindow (rootOf metas id) ∧ (metas (rootOf metas id)).parent = none := by
  obtain ⟨e, he⟩ := hasWindow_iff.1 hid
  rw [rootOf]
  cases hparent : (metas id).parent with
  | none => exact ⟨hid, hparent⟩
  | some p => exact (h.child he hparent).2.2

/-- Roots of one rank are one. -/
theorem eq_of_computeRootRank {i : ℕ} (hi : stack.computeRootRank id = some i)
    (hi' : stack.computeRootRank id' = some i) : id = id' := by
  obtain ⟨a, -, rfl, ha⟩ := rank?_eq_some hi
  obtain ⟨b, -, rfl, hb⟩ := rank?_eq_some hi'
  rw [Option.some.inj (ha.symm.trans hb)]

theorem eq_of_computeChildRank {i : ℕ} (hi : stack.computeChildRank p id = some i)
    (hi' : stack.computeChildRank p id' = some i) : id = id' := by
  obtain ⟨a, -, rfl, ha⟩ := rank?_eq_some hi
  obtain ⟨b, -, rfl, hb⟩ := rank?_eq_some hi'
  rw [Option.some.inj (ha.symm.trans hb)]

/-- **Z-indexes** are distinct, and children are above their roots. -/
theorem Sound.ordered (h : Sound metas stack) (hnine : AtMostNine metas stack) :
    Ordered metas stack where
  registered id hid := by
    obtain ⟨rootRank, offset, -, -, hz, -⟩ := exists_ranks h hnine hid
    rw [hz]
    rfl
  distinct id id' hid hid' heq := by
    obtain ⟨rootRank, offset, hroot, hle, hz, hnone, hsome⟩ := exists_ranks h hnine hid
    obtain ⟨rootRank', offset', hroot', hle', hz', hnone', hsome'⟩ := exists_ranks h hnine hid'
    rw [hz, hz', Option.some.injEq, DESKTOP_WINDOW_STACK_STRIDE] at heq
    obtain rfl : rootRank = rootRank' := by omega
    obtain rfl : offset = offset' := by omega
    have hsame := eq_of_computeRootRank hroot hroot'
    unfold rootOf at hsame
    cases hparent : (metas id).parent with
    | none =>
      cases hparent' : (metas id').parent with
      | none => rwa [hparent, hparent', Option.getD_none, Option.getD_none] at hsame
      | some p' =>
        obtain ⟨rank, -, hoffset⟩ := hsome' p' hparent'
        exact absurd (hnone hparent) (by omega)
    | some p =>
      obtain ⟨rank, hrank, hoffset⟩ := hsome p hparent
      cases hparent' : (metas id').parent with
      | none => exact absurd (hnone' hparent') (by omega)
      | some p' =>
        obtain ⟨rank', hrank', hoffset'⟩ := hsome' p' hparent'
        rw [hparent, hparent', Option.getD_some, Option.getD_some] at hsame
        subst hsame
        obtain rfl : rank = rank' := by omega
        exact eq_of_computeChildRank hrank hrank'
  child id p hid hparent := by
    obtain ⟨rootRank, offset, hroot, -, hz, -, hsome⟩ := exists_ranks h hnine hid
    obtain ⟨rank, -, hoffset⟩ := hsome p hparent
    rw [rootOf, hparent, Option.getD_some] at hroot
    obtain ⟨e, he⟩ := hasWindow_iff.1 hid
    obtain ⟨-, -, hp, hpnone⟩ := h.child he hparent
    obtain ⟨rootRank', offset', hroot', -, hz', hnone', -⟩ := exists_ranks h hnine hp
    rw [rootOf, hpnone, Option.getD_none, hroot] at hroot'
    obtain rfl := Option.some.inj hroot'
    refine ⟨_, _, hz, hz', ?_⟩
    rw [hnone' hpnone]
    omega
/-! ## Being in front -/

theorem not_above_self : ¬ Above stack id id := by
  rintro ⟨za, zb, ha, hb, hlt⟩
  obtain rfl := Option.some.inj (ha.symm.trans hb)
  exact Nat.lt_irrefl _ hlt

/-- A window of a group is above the root of a group that its own root precedes not. -/
theorem above_root_iff (h : Sound metas stack) (hnine : AtMostNine metas stack)
    (hw : stack.hasWindow w) {a b : InternalEntry} (ha : a ∈ stack.roots) (hb : b ∈ stack.roots)
    (hroot : rootOf metas w = b.id) (hne : a ≠ b) :
    Above stack w a.id ↔ Precedes (·.order) stack.roots a b := by
  obtain ⟨haget, hanone⟩ := h.mem_roots.1 ha
  obtain ⟨rankb, offset, hrankb, hle, hzw, -, -⟩ := exists_ranks h hnine hw
  obtain ⟨ranka, offseta, hranka, -, hza, hzero, -⟩ :=
    exists_ranks h hnine (hasWindow_iff.2 ⟨a, haget⟩)
  rw [rootOf, hanone, Option.getD_none] at hranka
  rw [hroot] at hrankb
  rw [hzero hanone] at hza
  rw [DESKTOP_WINDOW_STACK_STRIDE] at hzw hza
  constructor
  · rintro ⟨zw, za, hzw', hza', hlt⟩
    refine (precedes_or ha hb hne).resolve_right fun hlater => ?_
    have hless := rank_lt_of_precedes h.nodup_roots hb ha hlater hrankb hranka
    obtain rfl := Option.some.inj (hzw'.symm.trans hzw)
    obtain rfl := Option.some.inj (hza'.symm.trans hza)
    omega
  · intro hprecedes
    have hless := rank_lt_of_precedes h.nodup_roots ha hb hprecedes hranka hrankb
    exact ⟨_, _, hzw, hza, by omega⟩

/-- A child is above the siblings that precede it. -/
theorem above_sibling_iff (h : Sound metas stack) (hnine : AtMostNine metas stack)
    {a b : InternalEntry} (ha : a ∈ stack.children p) (hb : b ∈ stack.children p) (hne : a ≠ b) :
    Above stack b.id a.id ↔ Precedes (·.childOrder) (stack.children p) a b := by
  obtain ⟨haget, haparent⟩ := h.mem_children.1 ha
  obtain ⟨hbget, hbparent⟩ := h.mem_children.1 hb
  obtain ⟨rank, offset, hrank, -, hza, -, hoffset⟩ :=
    exists_ranks h hnine (hasWindow_iff.2 ⟨a, haget⟩)
  obtain ⟨rankb, offsetb, hrankb, -, hzb, -, hoffsetb⟩ :=
    exists_ranks h hnine (hasWindow_iff.2 ⟨b, hbget⟩)
  rw [rootOf, haparent] at hrank
  rw [rootOf, hbparent] at hrankb
  obtain rfl := Option.some.inj (hrankb.symm.trans hrank)
  obtain ⟨ranka, hranka, rfl⟩ := hoffset p haparent
  obtain ⟨rankb, hrankb, rfl⟩ := hoffsetb p hbparent
  constructor
  · rintro ⟨zb, za, hzb', hza', hlt⟩
    refine (precedes_or ha hb hne).resolve_right fun hlater => ?_
    have hless := rank_lt_of_precedes (h.nodup_children p) hb ha hlater hrankb hranka
    obtain rfl := Option.some.inj (hzb'.symm.trans hzb)
    obtain rfl := Option.some.inj (hza'.symm.trans hza)
    omega
  · intro hprecedes
    have hless := rank_lt_of_precedes (h.nodup_children p) ha hb hprecedes hranka hrankb
    exact ⟨_, _, hzb, hza, by omega⟩

/-- **Being in front** is to be preceded by all other roots, and by all siblings. -/
theorem frontmost_iff (h : Sound metas stack) (hnine : AtMostNine metas stack)
    (he : stack.entries.get? id = some e) (hr : stack.entries.get? (rootOf metas id) = some r) :
    Frontmost metas stack id ↔
      (∀ b ∈ stack.roots, b ≠ r → Precedes (·.order) stack.roots b r) ∧
        ∀ p, (metas id).parent = some p → ∀ b ∈ stack.children p, b ≠ e →
          Precedes (·.childOrder) (stack.children p) b e := by
  have hrid := (h.entry hr).1
  have heid := (h.entry he).1
  obtain ⟨-, hrootNone⟩ := hasWindow_rootOf h (hasWindow_iff.2 ⟨e, he⟩)
  have hrmem : r ∈ stack.roots := h.mem_roots.2 (by rw [hrid]; exact ⟨hr, hrootNone⟩)
  have hemem (p : String) (hp : (metas id).parent = some p) : e ∈ stack.children p :=
    h.mem_children.2 (by rw [heid]; exact ⟨he, hp⟩)
  constructor
  · refine fun hfront => ⟨fun b hb hne => ?_, fun p hp b hb hne => ?_⟩
    · obtain ⟨hbget, hbnone⟩ := h.mem_roots.1 hb
      have hbhas : stack.hasWindow b.id := hasWindow_iff.2 ⟨b, hbget⟩
      have hself : rootOf metas b.id = b.id := by rw [rootOf, hbnone, Option.getD_none]
      refine (precedes_or hb hrmem hne).resolve_right fun hlater => ?_
      have habove := (above_root_iff h hnine hbhas hrmem hb hself hne.symm).2 hlater
      refine hfront.root b.id hbhas (fun heq => ?_) (hrid ▸ habove)
      rw [← heq, hself, hbget] at hr
      exact hne (Option.some.inj hr)
    · obtain ⟨hbget, hbparent⟩ := h.mem_children.1 hb
      refine (precedes_or hb (hemem p hp) hne).resolve_right fun hlater => ?_
      have habove := (above_sibling_iff h hnine (hemem p hp) hb hne.symm).2 hlater
      refine hfront.sibling b.id (hasWindow_iff.2 ⟨b, hbget⟩) ?_ (hbparent.trans hp.symm)
        (heid ▸ habove)
      rw [hp]
      exact Option.some_ne_none p
  · rintro ⟨hroots, hsiblings⟩
    refine ⟨fun w hw hne habove => ?_, fun w hw hchild hparent habove => ?_⟩
    · obtain ⟨hwroot, hwnone⟩ := hasWindow_rootOf h hw
      obtain ⟨b, hb⟩ := hasWindow_iff.1 hwroot
      have hbid := (h.entry hb).1
      have hbr : b ≠ r := fun heq => hne (by rw [← hbid, heq, hrid])
      have hbmem : b ∈ stack.roots := h.mem_roots.2 (by rw [hbid]; exact ⟨hb, hwnone⟩)
      have hlater := (above_root_iff h hnine hw hrmem hbmem hbid.symm hbr.symm).1
        (hrid.symm ▸ habove)
      exact (hroots b hbmem hbr).asymm (List.Nodup.of_map _ h.nodup_roots) hlater
    · obtain ⟨p, hp⟩ := Option.ne_none_iff_exists'.1 hchild
      obtain ⟨b, hb⟩ := hasWindow_iff.1 hw
      have hbid := (h.entry hb).1
      by_cases hbe : b = e
      · rw [← hbid, hbe, heid] at habove
        exact not_above_self habove
      · have hbmem : b ∈ stack.children p :=
          h.mem_children.2 (by rw [hbid]; exact ⟨hb, hparent.trans hp⟩)
        have hlater := (above_sibling_iff h hnine (hemem p hp) hbmem (Ne.symm hbe)).1
          (by rwa [hbid, heid])
        exact (hsiblings p hp b hbmem hbe).asymm (List.Nodup.of_map _ (h.nodup_children p)) hlater

/-! ## Raising -/

/-- What raising an element does to a list that is ordered by a key: it gets a key above all
others, unless none is above its own. -/
inductive Raise (key : InternalEntry → ℕ) (l : List InternalEntry) (a : InternalEntry) :
    Bool → List InternalEntry → InternalEntry → Prop
  | raised {l' : List InternalEntry} {a' : InternalEntry} (hbelow : ∃ b ∈ l, key a < key b)
      (hhighest : ∀ b ∈ l', b ≠ a' → key b < key a') (hlength : l'.length = l.length) :
      Raise key l a true l' a'
  | kept (hmax : ∀ b ∈ l, key b ≤ key a) : Raise key l a false l a

variable {l l' : List InternalEntry} {a a' : InternalEntry} {raised : Bool}

theorem highest_le {n : ℕ} : highest key a l ≤ n ↔ key a ≤ n ∧ ∀ b ∈ l, key b ≤ n := by
  have hfold : ∀ m, l.foldl (fun m b => if key b > m then key b else m) m ≤ n ↔
      m ≤ n ∧ ∀ b ∈ l, key b ≤ n := by
    induction l with
    | nil => simp
    | cons b l ih =>
      intro m
      rw [List.foldl_cons, ih, List.forall_mem_cons, ← and_assoc]
      refine and_congr_left fun _ => ?_
      split <;> omega
  exact hfold (key a)

theorem le_highest : key a ≤ highest key a l :=
  (highest_le.1 (Nat.le_refl _)).1

theorem exists_above (h : key a < highest key a l) : ∃ b ∈ l, key a < key b := by
  by_contra hnone
  refine Nat.not_le_of_lt h (highest_le.2 ⟨Nat.le_refl _, fun b hb => ?_⟩)
  exact Nat.le_of_not_lt fun hlt => hnone ⟨b, hb, hlt⟩

theorem values_set {m : OrderedMap String InternalEntry} (he : m.get? id = some e)
    (hkeys : ∀ {k x}, m.get? k = some x → x.id = k) :
    (m.set id e').values = m.values.map fun x => if x.id = id then e' else x := by
  have hmem : id ∈ m.toList.map Prod.fst :=
    List.mem_map_of_mem (OrderedMap.get?_eq_some.1 he)
  rw [OrderedMap.set, dif_pos hmem, OrderedMap.values, OrderedMap.values, List.map_map,
    List.map_map]
  refine List.map_congr_left fun entry hentry => ?_
  dsimp only [Function.comp]
  rw [hkeys (OrderedMap.get?_eq_some.2 hentry)]
  split <;> rfl

/-- An element gets a key above all others. -/
theorem raise_update (hbelow : ∃ b ∈ l, key a < key b) (htop : ∀ b ∈ l, key b < key a') :
    Raise key l a true (l.map fun x => if x.id = id then a' else x) a' := by
  refine .raised hbelow (fun b hb hne => ?_) (List.length_map _)
  obtain ⟨x, hx, rfl⟩ := List.mem_map.1 hb
  split at hne
  · exact absurd rfl hne
  · rename_i hid
    rw [if_neg hid]
    exact htop x hx

/-- Entries of one kind after another entry of the kind has been put in the place of one. -/
theorem filter_update {q : InternalEntry → Bool} (hq : ∀ x ∈ l, x.id = id → q x = q e') :
    (l.map fun x => if x.id = id then e' else x).filter q =
      (l.filter q).map fun x => if x.id = id then e' else x := by
  rw [List.filter_map]
  congr 1
  refine List.filter_congr fun x hx => ?_
  dsimp only [Function.comp]
  split
  · rename_i hid
    exact (hq x hx hid).symm
  · rfl

/-- Entries of a kind that the changed one is not of. -/
theorem map_update_eq (h : ∀ x ∈ l, x.id ≠ id) :
    (l.map fun x => if x.id = id then e' else x) = l := by
  conv_rhs => rw [← List.map_id l]
  exact List.map_congr_left fun x hx => if_neg (h x hx)

/-- **Raising a child** among its siblings. -/
theorem raiseChild_spec (h : Sound metas stack) (he : stack.entries.get? id = some e)
    (hp : (metas id).parent = some p) :
    ∃ e', (stack.raiseChild id p e).2.entries.get? id = some e' ∧
      Raise (·.childOrder) (stack.children p) e (stack.raiseChild id p e).1
        ((stack.raiseChild id p e).2.children p) e' ∧
      (stack.raiseChild id p e).2.roots = stack.roots ∧
      ∀ x, x ≠ id → (stack.raiseChild id p e).2.entries.get? x = stack.entries.get? x := by
  obtain ⟨hne, -, -, -⟩ := h.child he hp
  obtain ⟨heid, hemeta⟩ := h.entry he
  unfold MutableDesktopWindowStack.raiseChild
  split
  · rename_i hraise
    have hbelow : ∃ b ∈ stack.children p, e.childOrder < b.childOrder := exists_above hraise.2
    have hvalues : ∀ e', (stack.entries.set id e').values =
        stack.entries.values.map fun x => if x.id = id then e' else x := fun e' =>
      values_set he fun hx => (h.entry hx).1
    have hsame : ∀ x ∈ stack.entries.values, x.id = id → x = e := fun x hx hxid => by
      have hget := h.mem_values.1 hx
      rw [hxid, he] at hget
      exact (Option.some.inj hget).symm
    refine ⟨_, by rw [OrderedMap.get?_set, if_pos rfl], ?_, ?_, fun x hx => by
      rw [OrderedMap.get?_set, if_neg hx]⟩
    · have hchildren : ({ stack with
            entries := stack.entries.set id { e with childOrder := stack.nextChildOrder + 1 }
            nextChildOrder := stack.nextChildOrder + 1 } : MutableDesktopWindowStack).children p =
          (stack.children p).map fun x =>
            if x.id = id then { e with childOrder := stack.nextChildOrder + 1 } else x := by
        rw [children, hvalues, filter_update fun x hx hxid => ?_]
        · rfl
        · rw [hsame x hx hxid]
          simp [hne]
      rw [hchildren]
      refine raise_update hbelow fun b hb => ?_
      obtain ⟨hb, hbparent⟩ := h.mem_children.1 hb
      exact Nat.lt_succ_of_le (h.child hb hbparent).2.1
    · rw [roots, hvalues, filter_update fun x hx hxid => ?_, ← roots]
      · refine map_update_eq fun x hx hxid => ?_
        obtain ⟨hx, hnone⟩ := h.mem_roots.1 hx
        rw [hxid, hp] at hnone
        cases hnone
      · rw [hsame x hx hxid]
        simp [hne]
  · rename_i hkept
    refine ⟨e, he, .kept fun b hb => ?_, rfl, fun _ _ => rfl⟩
    have hle : highest (·.childOrder) e (stack.children p) ≤ e.childOrder :=
      Nat.le_of_not_lt fun hlt => hkept ⟨hne, hlt⟩
    exact (highest_le.1 hle).2 b hb

/-- **Raising a root** among the roots. -/
theorem raiseRoot_spec (h : Sound metas stack) (hr : stack.entries.get? rootId = some r)
    (hroot : (metas rootId).parent = none) (changed : Bool) :
    ∃ raised r', (stack.raiseRoot rootId changed).1 = (changed || raised) ∧
      (stack.raiseRoot rootId changed).2.entries.get? rootId = some r' ∧
      Raise (·.order) stack.roots r raised (stack.raiseRoot rootId changed).2.roots r' ∧
      (∀ p, (stack.raiseRoot rootId changed).2.children p = stack.children p) ∧
      ∀ x, x ≠ rootId →
        (stack.raiseRoot rootId changed).2.entries.get? x = stack.entries.get? x := by
  have hzero := (h.root hr hroot).1
  unfold MutableDesktopWindowStack.raiseRoot
  rw [hr]
  dsimp only
  split
  · rename_i hmax
    refine ⟨false, r, (Bool.or_false _).symm, hr, .kept fun b hb => ?_, fun _ => rfl,
      fun _ _ => rfl⟩
    exact (highest_le.1 (Nat.le_of_eq hmax.symm)).2 b hb
  · rename_i hlower
    have hbelow : ∃ b ∈ stack.roots, r.order < b.order :=
      exists_above (Nat.lt_of_le_of_ne le_highest hlower)
    have hvalues : ∀ e', (stack.entries.set rootId e').values =
        stack.entries.values.map fun x => if x.id = rootId then e' else x := fun e' =>
      values_set hr fun hx => (h.entry hx).1
    have hsame : ∀ x ∈ stack.entries.values, x.id = rootId → x = r := fun x hx hxid => by
      have hget := h.mem_values.1 hx
      rw [hxid, hr] at hget
      exact (Option.some.inj hget).symm
    refine ⟨true, _, (Bool.or_true _).symm, by rw [OrderedMap.get?_set, if_pos rfl], ?_,
      fun p => ?_, fun x hx => by rw [OrderedMap.get?_set, if_neg hx]⟩
    · have hroots : ({ stack with
            entries := stack.entries.set rootId { r with order := stack.nextRootOrder + 1 }
            nextRootOrder := stack.nextRootOrder + 1 } : MutableDesktopWindowStack).roots =
          stack.roots.map fun x =>
            if x.id = rootId then { r with order := stack.nextRootOrder + 1 } else x := by
        rw [roots, hvalues, filter_update fun x hx hxid => ?_]
        · rfl
        · rw [hsame x hx hxid]
      rw [hroots]
      refine raise_update hbelow fun b hb => ?_
      obtain ⟨hb, hbnone⟩ := h.mem_roots.1 hb
      exact Nat.lt_succ_of_le (h.root hb hbnone).2
    · rw [children, hvalues, filter_update fun x hx hxid => ?_, ← children]
      · refine map_update_eq fun x hx hxid => ?_
        obtain ⟨hx, hparent⟩ := h.mem_children.1 hx
        rw [hxid, hroot] at hparent
        cases hparent
      · rw [hsame x hx hxid]
/-- An element with the greatest key, and with another element of this key after it. -/
def Tied (key : InternalEntry → ℕ) (l : List InternalEntry) (a : InternalEntry) : Prop :=
  (∀ b ∈ l, key b ≤ key a) ∧ ∃ b, [a, b].Sublist l ∧ key b = key a

/-- After a raise everything else precedes, unless there was a tie. -/
theorem Raise.precedes_iff (h : Raise key l a raised l' a') (hl : l.Nodup) (ha : a ∈ l) :
    (∀ b ∈ l', b ≠ a' → Precedes key l' b a') ↔ ¬ Tied key l a := by
  cases h with
  | raised hbelow hhighest =>
    refine iff_of_true (fun b hb hne => Or.inl (hhighest b hb hne)) ?_
    obtain ⟨b, hb, hlt⟩ := hbelow
    exact fun htied => Nat.not_le_of_lt hlt (htied.1 b hb)
  | kept hmax => rw [forall_precedes_iff hl ha hmax, Tied, and_iff_right hmax]

/-- A raise gives another rank. -/
theorem Raise.rank_ne (h : Raise key l a true l' a') (hnames : (l.map (·.id)).Nodup)
    (hnames' : (l'.map (·.id)).Nodup) (ha : a ∈ l) (ha' : a' ∈ l') :
    rank? key (·.id) l a.id ≠ rank? key (·.id) l' a'.id := by
  cases h with
  | raised hbelow hhighest hlength =>
    obtain ⟨b, hb, hlt⟩ := hbelow
    obtain ⟨i, hi, -, -⟩ := @exists_rank? _ _ key _ _ _ _ hnames ha
    have hless := rank_lt_last hnames ha hb (Or.inl hlt) hi
    have hlast := rank?_eq_last hnames' ha' fun b hb hne => Or.inl (hhighest b hb hne)
    rw [hi, hlast, hlength]
    intro heq
    have := Option.some.inj heq
    omega

/-- **Raising a window** raises its root, and the window among its siblings. -/
theorem bringToFront_spec (h : Sound metas stack) (he : stack.entries.get? id = some e)
    (hr : stack.entries.get? (rootOf metas id) = some r) :
    ∃ raisedRoot raisedChild r' e',
      (stack.bringToFront id).1 = (raisedChild || raisedRoot) ∧
      (stack.bringToFront id).2.entries.get? (rootOf metas id) = some r' ∧
      (stack.bringToFront id).2.entries.get? id = some e' ∧
      Raise (·.order) stack.roots r raisedRoot (stack.bringToFront id).2.roots r' ∧
      ((metas id).parent = none → raisedChild = false) ∧
      ∀ p, (metas id).parent = some p →
        Raise (·.childOrder) (stack.children p) e raisedChild
          ((stack.bringToFront id).2.children p) e' := by
  obtain ⟨-, hrootNone⟩ := hasWindow_rootOf h (hasWindow_iff.2 ⟨e, he⟩)
  have hroot : stack.hasWindow (rootOf metas id) := hasWindow_iff.2 ⟨r, hr⟩
  have hbring : stack.bringToFront id =
      (stack.raiseChild id (rootOf metas id) e).2.raiseRoot (rootOf metas id)
        (stack.raiseChild id (rootOf metas id) e).1 := by
    have hid : Windows.getRootId e = rootOf metas id := h.getRootId he
    unfold MutableDesktopWindowStack.bringToFront
    rw [he]
    dsimp only
    rw [hid, if_pos hroot]
  rw [hbring]
  cases hparent : (metas id).parent with
  | none =>
    have hself : rootOf metas id = id := by rw [rootOf, hparent, Option.getD_none]
    have hzero := (h.root he hparent).1
    have hsame : stack.raiseChild id (rootOf metas id) e = (false, stack) := by
      unfold MutableDesktopWindowStack.raiseChild
      rw [if_neg fun hraise => hraise.1 hzero]
    rw [hsame]
    obtain ⟨raised, r', hchanged, hr', hraise, -⟩ := raiseRoot_spec h hr hrootNone false
    exact ⟨raised, false, r', r', hchanged, hr', by rwa [hself] at hr' ⊢, hraise, fun _ => rfl,
      nofun⟩
  | some p =>
    have hp : rootOf metas id = p := by rw [rootOf, hparent, Option.getD_some]
    rw [hp] at hr hrootNone ⊢
    have hne : p ≠ id := fun heq => by
      rw [heq, hparent] at hrootNone
      cases hrootNone
    obtain ⟨e', he', hraiseChild, hroots, hothers⟩ := raiseChild_spec h he hparent
    have hsound : Sound metas (stack.raiseChild id p e).2 := sound_raiseChild h he
    obtain ⟨raised, r', hchanged, hr', hraise, hchildren, hothers'⟩ :=
      raiseRoot_spec hsound ((hothers p hne).trans hr) hrootNone (stack.raiseChild id p e).1
    rw [hroots] at hraise
    refine ⟨raised, _, r', e', hchanged, hr', (hothers' id hne.symm).trans he', hraise, nofun,
      fun q hq => ?_⟩
    obtain rfl := Option.some.inj hq
    rw [hchildren]
    exact hraiseChild

/-- A number that the raised window, or its root, shares with a later one. -/
def TiedAt (stack : MutableDesktopWindowStack) (id : String) : Prop :=
  ∃ e, stack.entries.get? id = some e ∧
    ((∃ r, stack.entries.get? (getRootId e) = some r ∧ Tied (·.order) stack.roots r) ∨
      e.childOrder ≠ 0 ∧ Tied (·.childOrder) (stack.children (getRootId e)) e)

/-- **A raised window is in front** unless there is a tie. -/
theorem frontmost_bringToFront_iff (h : Sound metas stack) (hid : stack.hasWindow id)
    (hnine : AtMostNine metas (stack.bringToFront id).2) :
    Frontmost metas (stack.bringToFront id).2 id ↔ ¬ TiedAt stack id := by
  obtain ⟨e, he⟩ := hasWindow_iff.1 hid
  obtain ⟨hroot, hrootNone⟩ := hasWindow_rootOf h hid
  obtain ⟨r, hr⟩ := hasWindow_iff.1 hroot
  have hrmem : r ∈ stack.roots :=
    h.mem_roots.2 (by rw [(h.entry hr).1]; exact ⟨hr, hrootNone⟩)
  obtain ⟨raisedRoot, raisedChild, r', e', -, hr', he', hraiseRoot, -, hraiseChild⟩ :=
    bringToFront_spec h he hr
  have hgetRoot : getRootId e = rootOf metas id := h.getRootId he
  rw [frontmost_iff (sound_bringToFront h) hnine he' hr',
    hraiseRoot.precedes_iff (List.Nodup.of_map _ h.nodup_roots) hrmem]
  constructor
  · rintro ⟨hnotied, hsiblings⟩ ⟨e₀, he₀, htied⟩
    obtain rfl := Option.some.inj (he.symm.trans he₀)
    rw [hgetRoot] at htied
    rcases htied with ⟨r₀, hr₀, htied⟩ | ⟨hchild, htied⟩
    · obtain rfl := Option.some.inj (hr.symm.trans hr₀)
      exact hnotied htied
    · obtain ⟨p, hp⟩ := Option.ne_none_iff_exists'.1
        (mt (h.childOrder_eq_zero he).2 hchild)
      rw [rootOf, hp, Option.getD_some] at htied
      have hemem : e ∈ stack.children p :=
        h.mem_children.2 (by rw [(h.entry he).1]; exact ⟨he, hp⟩)
      exact ((hraiseChild p hp).precedes_iff (List.Nodup.of_map _ (h.nodup_children p)) hemem).1
        (hsiblings p hp) htied
  · intro hnotied
    refine ⟨fun htied => hnotied ⟨e, he, Or.inl ⟨r, by rwa [hgetRoot], htied⟩⟩, fun p hp => ?_⟩
    have hemem : e ∈ stack.children p := h.mem_children.2 (by rw [(h.entry he).1]; exact ⟨he, hp⟩)
    refine ((hraiseChild p hp).precedes_iff (List.Nodup.of_map _ (h.nodup_children p)) hemem).2
      fun htied => hnotied ⟨e, he, Or.inr ⟨(h.child he hp).1, ?_⟩⟩
    rwa [hgetRoot, rootOf, hp, Option.getD_some]

theorem bringToFront_eq (hfalse : (stack.bringToFront id).1 = false) :
    (stack.bringToFront id).2 = stack := by
  have hchild : ∀ rootId e, (stack.raiseChild id rootId e).1 = false →
      (stack.raiseChild id rootId e).2 = stack := fun rootId e => by
    unfold MutableDesktopWindowStack.raiseChild
    split
    · nofun
    · exact fun _ => rfl
  have hroot : ∀ (stack : MutableDesktopWindowStack) rootId changed,
      (stack.raiseRoot rootId changed).1 = false →
        changed = false ∧ (stack.raiseRoot rootId changed).2 = stack :=
    fun stack rootId changed => by
      unfold MutableDesktopWindowStack.raiseRoot
      split
      · exact fun hfalse => ⟨hfalse, rfl⟩
      · split
        · exact fun hfalse => ⟨hfalse, rfl⟩
        · nofun
  unfold MutableDesktopWindowStack.bringToFront at hfalse ⊢
  split at hfalse
  · rfl
  · rename_i e he
    dsimp only at hfalse ⊢
    split at hfalse
    · rename_i hwindow
      obtain ⟨hchanged, hsame⟩ := hroot _ _ _ hfalse
      rw [if_pos hwindow, hsame, hchild _ _ hchanged]
    · rename_i hwindow
      rw [if_neg hwindow]

/-- A raised root has another z-index. -/
theorem getZIndex_ne_of_raise_root {after : MutableDesktopWindowStack} (h : Sound metas stack)
    (h' : Sound metas after) (hr : stack.entries.get? id = some r)
    (hr' : after.entries.get? id = some e) (hroot : (metas id).parent = none)
    (hraise : Raise (·.order) stack.roots r true after.roots e) :
    stack.getZIndex id ≠ after.getZIndex id := by
  obtain ⟨rank, hrank, -, hz⟩ := h.getZIndex_root hr hroot
  obtain ⟨rank', hrank', -, hz'⟩ := h'.getZIndex_root hr' hroot
  have hid := (h.entry hr).1
  have hid' := (h'.entry hr').1
  have hne := hraise.rank_ne h.nodup_roots h'.nodup_roots
    (h.mem_roots.2 (by rw [hid]; exact ⟨hr, hroot⟩))
    (h'.mem_roots.2 (by rw [hid']; exact ⟨hr', hroot⟩))
  rw [hid, hid', ← computeRootRank, ← computeRootRank, hrank, hrank'] at hne
  rw [hz, hz', DESKTOP_WINDOW_STACK_STRIDE]
  intro heq
  have hsame := Option.some.inj heq
  exact hne (congrArg some (by omega))

/-- A raised child has another z-index, when its root has not been raised. -/
theorem getZIndex_ne_of_raise_child {after : MutableDesktopWindowStack} (h : Sound metas stack)
    (h' : Sound metas after) (he : stack.entries.get? id = some e)
    (he' : after.entries.get? id = some r) (hparent : (metas id).parent = some p)
    (hroots : after.roots = stack.roots)
    (hraise : Raise (·.childOrder) (stack.children p) e true (after.children p) r) :
    stack.getZIndex id ≠ after.getZIndex id := by
  obtain ⟨rootRank, rank, hrootRank, hrank, -, hz⟩ := h.getZIndex_child he hparent
  obtain ⟨rootRank', rank', hrootRank', hrank', -, hz'⟩ := h'.getZIndex_child he' hparent
  have hid := (h.entry he).1
  have hid' := (h'.entry he').1
  have hne := hraise.rank_ne (h.nodup_children p) (h'.nodup_children p)
    (h.mem_children.2 (by rw [hid]; exact ⟨he, hparent⟩))
    (h'.mem_children.2 (by rw [hid']; exact ⟨he', hparent⟩))
  rw [hid, hid', ← computeChildRank, ← computeChildRank, hrank, hrank'] at hne
  rw [computeRootRank, hroots, ← computeRootRank, hrootRank, Option.some.injEq] at hrootRank'
  subst hrootRank'
  rw [hz, hz']
  intro heq
  have hsame := Option.some.inj heq
  exact hne (congrArg some (by omega))

/-- **The answer of a raise**: whether the z-index of some window has changed. -/
theorem bringToFront_changed_iff (h : Sound metas stack) :
    (stack.bringToFront id).1 = true ↔
      ∃ w, stack.hasWindow w ∧ stack.getZIndex w ≠ (stack.bringToFront id).2.getZIndex w := by
  constructor
  · intro htrue
    have hid : stack.hasWindow id := by
      by_contra hnone
      have hget : stack.entries.get? id = none := by simpa [hasWindow] using hnone
      unfold MutableDesktopWindowStack.bringToFront at htrue
      rw [hget] at htrue
      cases htrue
    obtain ⟨e, he⟩ := hasWindow_iff.1 hid
    obtain ⟨hroot, hrootNone⟩ := hasWindow_rootOf h hid
    obtain ⟨r, hr⟩ := hasWindow_iff.1 hroot
    obtain ⟨raisedRoot, raisedChild, r', e', hchanged, hr', he', hraiseRoot, hnone, hraiseChild⟩ :=
      bringToFront_spec h he hr
    have h' : Sound metas (stack.bringToFront id).2 := sound_bringToFront h
    cases raisedRoot with
    | true =>
      exact ⟨rootOf metas id, hroot,
        getZIndex_ne_of_raise_root h h' hr hr' hrootNone hraiseRoot⟩
    | false =>
      rw [htrue, Bool.or_false] at hchanged
      subst hchanged
      cases hparent : (metas id).parent with
      | none => cases hnone hparent
      | some p =>
        have hroots : (stack.bringToFront id).2.roots = stack.roots := by
          generalize (stack.bringToFront id).2.roots = roots at hraiseRoot
          cases hraiseRoot
          rfl
        exact ⟨id, hid,
          getZIndex_ne_of_raise_child h h' he he' hparent hroots (hraiseChild p hparent)⟩
  · rintro ⟨w, -, hne⟩
    by_contra hfalse
    rw [bringToFront_eq (Bool.eq_false_iff.2 hfalse)] at hne
    exact hne rfl

/-! ## Runs -/

inductive Call
  | ensureWindow (id : String)
  | bringToFront (id : String)
  | removeWindow (id : String)
  deriving DecidableEq

variable {call : Call} {calls : List Call}

/-- A call on a stack, with its answer; each window is always registered with its meta. -/
def perform (metas : String → DesktopWindowMeta) (stack : MutableDesktopWindowStack) :
    Call → Bool × MutableDesktopWindowStack
  | .ensureWindow id => stack.ensureWindow id (metas id)
  | .bringToFront id => stack.bringToFront id
  | .removeWindow id => stack.removeWindow id

/-- A parent is a root that is registered when its child is. -/
def Proper (metas : String → DesktopWindowMeta) (stack : MutableDesktopWindowStack) : Call → Prop
  | .ensureWindow id => ParentRegistered metas stack id
  | _ => True

/-- What is expected of a call: a raised window is in front, and the answer of a raise tells whether
it has changed the z-index of some window. -/
def Expected (metas : String → DesktopWindowMeta) (stack : MutableDesktopWindowStack) :
    Call → Prop
  | .bringToFront id =>
    (stack.hasWindow id → Frontmost metas (stack.bringToFront id).2 id) ∧
      ((stack.bringToFront id).1 = true ↔
        ∃ w, stack.hasWindow w ∧ stack.getZIndex w ≠ (stack.bringToFront id).2.getZIndex w)
  | _ => True

/-- A raise that meets no tie. -/
def Untied (stack : MutableDesktopWindowStack) : Call → Prop
  | .bringToFront id => ¬ TiedAt stack id
  | _ => True

/-- Something holds of a stack, and of the stacks that calls lead to. -/
def Along (metas : String → DesktopWindowMeta) (state : MutableDesktopWindowStack → Prop)
    (step : MutableDesktopWindowStack → Call → Prop) (stack : MutableDesktopWindowStack) :
    List Call → Prop
  | [] => state stack
  | call :: calls => state stack ∧ step stack call ∧
      Along metas state step (perform metas stack call).2 calls

theorem sound_perform (h : Sound metas stack) (hproper : Proper metas stack call) :
    Sound metas (perform metas stack call).2 := by
  cases call with
  | ensureWindow id => exact sound_ensureWindow h hproper
  | bringToFront id => exact sound_bringToFront h
  | removeWindow id => exact sound_removeWindow h

/-- **One call** does what is expected exactly when it meets no tie. -/
theorem expected_iff (h : Sound metas stack)
    (hnine : AtMostNine metas (perform metas stack call).2) :
    Expected metas stack call ↔ Untied stack call := by
  cases call with
  | ensureWindow id => exact Iff.rfl
  | removeWindow id => exact Iff.rfl
  | bringToFront id =>
    rw [Expected, Untied, and_iff_left (bringToFront_changed_iff h)]
    by_cases hid : stack.hasWindow id = true
    · rw [← frontmost_bringToFront_iff h hid hnine]
      exact ⟨fun hfront => hfront hid, fun hfront _ => hfront⟩
    · refine iff_of_true (fun h => absurd h hid) ?_
      rintro ⟨e, he, -⟩
      exact hid (hasWindow_iff.2 ⟨e, he⟩)

theorem Along.state {state : MutableDesktopWindowStack → Prop}
    {step : MutableDesktopWindowStack → Call → Prop} (h : Along metas state step stack calls) :
    state stack := by
  cases calls with
  | nil => exact h
  | cons call calls => exact h.1

/-- **Every run** from a sound stack. -/
theorem along_iff (h : Sound metas stack)
    (hproper : Along metas (AtMostNine metas) (Proper metas) stack calls) :
    Along metas (Ordered metas) (Expected metas) stack calls ↔
      Along metas (fun _ => True) Untied stack calls := by
  induction calls generalizing stack with
  | nil => exact iff_of_true (h.ordered hproper) trivial
  | cons call calls ih =>
    obtain ⟨hnine, hcall, hlater⟩ := hproper
    rw [Along, Along, and_iff_right (h.ordered hnine), and_iff_right trivial,
      expected_iff h hlater.state, ih (sound_perform h hcall) hlater]

/-- **The stack orders windows as used**, in every run, exactly as long as no raise meets a tie. -/
theorem windows_ordered_iff (metas : String → DesktopWindowMeta) (calls : List Call)
    (hproper : Along metas (AtMostNine metas) (Proper metas) {} calls) :
    Along metas (Ordered metas) (Expected metas) {} calls ↔
      Along metas (fun _ => True) Untied {} calls :=
  along_iff sound_start hproper
/-- Windows of which `b` is a child of `a`. -/
def family (id : String) : DesktopWindowMeta :=
  { kind := "panel", parentId := if id = "b" then some "a" else none }

theorem parent_family : (family id).parent = if id = "b" then some "a" else none := by
  unfold family DesktopWindowMeta.parent
  by_cases hid : id = "b"
  · simp only [hid, if_true]
    decide
  · simp only [hid, if_false]
    rfl

theorem atMostNine_of_length (h : stack.entries.toList.length ≤ 9) : AtMostNine metas stack :=
  fun _ => (List.length_filter_le _ _).trans h

theorem parentRegistered_family (h : id ≠ "b" ∨ stack.hasWindow "a" = true) :
    ParentRegistered family stack id := by
  intro p hp
  rw [parent_family] at hp
  split at hp
  · rename_i hid
    obtain rfl := Option.some.inj hp
    exact ⟨h.resolve_left (not_not_intro hid), by rw [parent_family]; rfl⟩
  · cases hp

/-- A raised window has the number of the one that is registered next, and is left behind it. -/
theorem not_windows_ordered :
    ¬ ∀ metas calls, Along metas (AtMostNine metas) (Proper metas) {} calls →
      Along metas (Ordered metas) (Expected metas) {} calls := by
  intro h
  have hproper : Along family (AtMostNine family) (Proper family) {}
      [.ensureWindow "a", .ensureWindow "c", .bringToFront "a", .ensureWindow "d",
        .bringToFront "a"] := by
    refine ⟨atMostNine_of_length (by decide), parentRegistered_family (Or.inl (by decide)),
      atMostNine_of_length (by decide), parentRegistered_family (Or.inl (by decide)),
      atMostNine_of_length (by decide), trivial,
      atMostNine_of_length (by decide), parentRegistered_family (Or.inl (by decide)),
      atMostNine_of_length (by decide), trivial, atMostNine_of_length (by decide)⟩
  obtain ⟨-, -, -, -, -, -, -, -, -, huntied, -⟩ :=
    (along_iff sound_start hproper).1 (h family _ hproper)
  refine huntied ⟨⟨"a", family "a", 4, 0⟩, by decide, Or.inl ⟨⟨"a", family "a", 4, 0⟩, by decide,
    by decide, ⟨"d", family "d", 4, 0⟩, by decide, rfl⟩⟩

/-- A child is raised, and its root with it. -/
theorem windows_ordered_iff_family :
    Along family (Ordered family) (Expected family) {}
        [.ensureWindow "a", .ensureWindow "b", .ensureWindow "c", .bringToFront "b",
          .removeWindow "a"] ↔
      Along family (fun _ => True) Untied {}
        [.ensureWindow "a", .ensureWindow "b", .ensureWindow "c", .bringToFront "b",
          .removeWindow "a"] :=
  windows_ordered_iff family _
    ⟨atMostNine_of_length (by decide), parentRegistered_family (Or.inl (by decide)),
      atMostNine_of_length (by decide), parentRegistered_family (Or.inr (by decide)),
      atMostNine_of_length (by decide), parentRegistered_family (Or.inl (by decide)),
      atMostNine_of_length (by decide), trivial, atMostNine_of_length (by decide), trivial,
      atMostNine_of_length (by decide)⟩

end Imcodes.Windows
