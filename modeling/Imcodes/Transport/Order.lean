import Imcodes.Transport.Numbering

/-!
# Ordinary messages reach the provider in send order

* `InOrder` — what a trace must say: of two messages sent with the placement
  `normal`, the first is put into a dispatch no later than the second, and
  before it if both are in the same one.
* `InLine` — the invariant of the lane behind it.  A message that was accepted
  has been dispatched, or has been taken out of the queue, or still waits in it;
  and what waits is in order.
* `in_send_order_iff` — the order is kept in every run in which a message never
  finds others waiting while nothing is going on, and only then does no message
  overtake the queue.
-/

namespace Imcodes.Transport

open Imcodes.Queue Machine

attribute [local irreducible] Queue.edit Queue.drop Queue.enqueue finalizeSentBatch

/-! ## What a trace says -/

/-- The message, if it was accepted with the placement `normal`. -/
def Mark.acceptedNormal : Mark → List Nat
  | .accepted serial .normal _ => [serial]
  | _ => []

/-- The messages accepted with the placement `normal`, in order. -/
def acceptedNormal (t : List Mark) : List Nat := t.flatMap Mark.acceptedNormal

@[simp] theorem acceptedNormal_append (t u : List Mark) :
    acceptedNormal (t ++ u) = acceptedNormal t ++ acceptedNormal u := List.flatMap_append

@[simp] theorem acceptedNormal_cons (m : Mark) (t : List Mark) :
    acceptedNormal (m :: t) = m.acceptedNormal ++ acceptedNormal t := rfl

@[simp] theorem acceptedNormal_nil : acceptedNormal [] = [] := rfl

theorem Mark.acceptedNormal_sublist (m : Mark) : m.acceptedNormal.Sublist m.acceptedSerials := by
  cases m with
  | accepted serial intake id => cases intake <;> simp [acceptedNormal, acceptedSerials]
  | _ => exact List.nil_sublist _

theorem acceptedNormal_sublist (t : List Mark) :
    (acceptedNormal t).Sublist (acceptedSerials t) := by
  induction t with
  | nil => exact List.nil_sublist _
  | cons m t ih => exact m.acceptedNormal_sublist.append ih

/-- Of two messages sent with the placement `normal`, neither withdrawn, the
first has been put into a dispatch before the second, or before it in the same
one. -/
def InOrder (t : List Mark) : Prop :=
  ∀ s₁ s₂, [s₁, s₂].Sublist (acceptedNormal t) → s₁ ∉ withdrawnSerials t →
    ∀ before entries, before ++ [.dispatched entries] <+: t → s₂ ∈ entries.map (·.1) →
      s₁ ∈ dispatchedSerials before ∨ [s₁, s₂].Sublist (entries.map (·.1))

/-- A dispatch leaves out no older message that waits. -/
def DispatchInOrder (before : List Mark) (serials : List Nat) : Prop :=
  ∀ s₁ ∈ acceptedNormal before, ∀ s₂ ∈ acceptedNormal before, s₁ < s₂ →
    s₁ ∉ withdrawnSerials before → s₂ ∈ serials →
      s₁ ∈ dispatchedSerials before ∨ [s₁, s₂].Sublist serials

/-- What a mark must be, given those before it. -/
def MarkInOrder (before : List Mark) : Mark → Prop
  | .accepted serial _ _ => ∀ s ∈ dispatchedSerials before ++ acceptedSerials before, s < serial
  | .dispatched entries => DispatchInOrder before (entries.map (·.1))
  | _ => True

/-- The mark says nothing of what is accepted or dispatched. -/
def Mark.Plain (m : Mark) : Prop := m.acceptedSerials = [] ∧ m.dispatchedSerials = []

theorem Mark.Plain.acceptedNormal {m : Mark} (h : m.Plain) : m.acceptedNormal = [] :=
  List.sublist_nil.1 (h.1 ▸ m.acceptedNormal_sublist)

theorem Mark.Plain.markInOrder {m : Mark} (h : m.Plain) (before : List Mark) :
    MarkInOrder before m := by
  cases m with
  | accepted serial intake id => exact absurd h.1 (by simp [acceptedSerials])
  | dispatched entries =>
    intro s₁ _ s₂ _ _ _ hs₂
    rw [show entries.map (·.1) = [] from h.2] at hs₂
    cases hs₂
  | _ => trivial

theorem traced_append_plain {t u : List Mark} (ht : Traced MarkInOrder t)
    (hu : ∀ m ∈ u, m.Plain) : Traced MarkInOrder (t ++ u) := by
  induction u using List.reverseRecOn with
  | nil => rwa [List.append_nil]
  | append_singleton u m ih =>
    rw [← List.append_assoc]
    refine traced_concat.2 ⟨ih fun m' hm' => hu m' (List.mem_append_left _ hm'), ?_⟩
    exact (hu m (List.mem_append_right _ (List.mem_singleton_self m))).markInOrder _

theorem DispatchInOrder.append_plain {t u : List Mark} {serials : List Nat}
    (h : DispatchInOrder t serials) (hu : ∀ m ∈ u, m.Plain) :
    DispatchInOrder (t ++ u) serials := by
  have hnormal : acceptedNormal u = [] :=
    List.flatMap_eq_nil_iff.2 fun m hm => (hu m hm).acceptedNormal
  intro s₁ hs₁ s₂ hs₂ hlt hwithdrawn hs₂'
  rw [acceptedNormal_append, hnormal, List.append_nil] at hs₁ hs₂
  rw [withdrawnSerials_append, List.mem_append, not_or] at hwithdrawn
  rw [dispatchedSerials_append]
  exact (h s₁ hs₁ s₂ hs₂ hlt hwithdrawn.1 hs₂').imp_left (List.mem_append_left _)

/-- Messages are numbered as they come. -/
theorem acceptedSerials_pairwise {t : List Mark} (h : Traced MarkInOrder t) :
    (acceptedSerials t).Pairwise (· < ·) := by
  induction t using List.reverseRecOn with
  | nil => exact List.Pairwise.nil
  | append_singleton t m ih =>
    obtain ⟨ht, hm⟩ := traced_concat.1 h
    rw [acceptedSerials_append]
    refine List.pairwise_append.2 ⟨ih ht, ?_, fun s hs s' hs' => ?_⟩
    · cases m <;> simp [Mark.acceptedSerials]
    · cases m with
      | accepted serial intake id =>
        rw [acceptedSerials_cons, acceptedSerials_nil, List.append_nil] at hs'
        rw [List.mem_singleton.1 hs']
        exact hm s (List.mem_append_right _ hs)
      | _ => cases hs'

/-- What is accepted after a dispatch has a larger number than all that it, and
those before it, contain. -/
theorem lt_of_accepted_later {t before after : List Mark} (h : Traced MarkInOrder t)
    (heq : t = before ++ after) {s s' : Nat} (hs : s ∈ dispatchedSerials before)
    (hs' : s' ∈ acceptedSerials after) : s < s' := by
  obtain ⟨m, hm, hsm⟩ := List.mem_flatMap.1 hs'
  obtain ⟨u, v, rfl⟩ := List.append_of_mem hm
  have hpre : before ++ u ++ [m] <+: t := ⟨v, by simp [heq]⟩
  cases m with
  | accepted serial intake id =>
    rw [List.mem_singleton.1 hsm]
    refine h _ _ hpre s (List.mem_append_left _ ?_)
    rw [dispatchedSerials_append]
    exact List.mem_append_left _ hs
  | _ => cases hsm

/-- Marks that are right, one after the other, make a trace that is in order. -/
theorem inOrder_of_traced {t : List Mark} (h : Traced MarkInOrder t) : InOrder t := by
  intro s₁ s₂ hpair hwithdrawn before entries hpre hs₂
  have hsorted := (acceptedSerials_pairwise h).sublist (acceptedNormal_sublist t)
  have hlt : s₁ < s₂ := (List.pairwise_pair.1 (hsorted.sublist hpair))
  obtain ⟨after, heq⟩ := hpre
  -- Neither message has been accepted after the dispatch.
  have hbefore : ∀ s ∈ acceptedNormal t, s ≤ s₂ → s ∈ acceptedNormal before := by
    intro s hs hle
    rw [← heq, acceptedNormal_append, acceptedNormal_append, List.append_assoc] at hs
    rcases List.mem_append.1 hs with hs | hs
    · exact hs
    · have hs' : s ∈ acceptedSerials after :=
        (acceptedNormal_sublist after).subset (by simpa [Mark.acceptedNormal] using hs)
      have hmem : s₂ ∈ dispatchedSerials (before ++ [.dispatched entries]) := by
        simpa [Mark.dispatchedSerials] using Or.inr hs₂
      exact absurd (lt_of_accepted_later h heq.symm hmem hs') (Nat.not_lt.2 hle)
  have hwithdrawn' : s₁ ∉ withdrawnSerials before := fun hmem => hwithdrawn (by
    rw [← heq, List.append_assoc, withdrawnSerials_append]
    exact List.mem_append_left _ hmem)
  exact h before _ ⟨after, heq⟩ s₁ (hbefore s₁ (hpair.subset (by simp)) (Nat.le_of_lt hlt)) s₂
    (hbefore s₂ (hpair.subset (by simp)) (Nat.le_refl _)) hlt hwithdrawn' hs₂

/-! ## The invariant -/

namespace Lane

/-- Number and intake of the entries of a lane. -/
def tags (entries : List PendingEntry) : List (Nat × Intake) :=
  entries.map fun e => (e.serial, e.intake)

@[simp] theorem tags_append (es es' : List PendingEntry) : tags (es ++ es') = tags es ++ tags es' :=
  List.map_append

@[simp] theorem tags_handedOver (es : List PendingEntry) :
    tags (es.map PendingEntry.handedOver) = tags es := by
  rw [tags, List.map_map]
  rfl

@[simp] theorem tags_editFirst (id text : String) (es : List PendingEntry) :
    tags (TransportSessionRuntime.editFirst id text es) = tags es := by
  induction es with
  | nil => rfl
  | cons e rest ih =>
    unfold TransportSessionRuntime.editFirst
    split
    · rfl
    · exact congrArg ((e.serial, e.intake) :: ·) ih

theorem fst_tags (es : List PendingEntry) : (tags es).map (·.1) = es.map (·.serial) := by
  rw [tags, List.map_map]
  rfl

/-- The numbers of those sent with the placement `normal`. -/
def normals (tags : List (Nat × Intake)) : List Nat :=
  (tags.filter (·.2 = .normal)).map (·.1)

@[simp] theorem normals_append (ts ts' : List (Nat × Intake)) :
    normals (ts ++ ts') = normals ts ++ normals ts' := by
  rw [normals, List.filter_append, List.map_append, normals, normals]

theorem normals_sublist (ts : List (Nat × Intake)) : (normals ts).Sublist (ts.map (·.1)) :=
  List.filter_sublist.map _

theorem mem_normals {ts : List (Nat × Intake)} {s : Nat} :
    s ∈ normals ts ↔ (s, Intake.normal) ∈ ts := by
  constructor
  · intro h
    obtain ⟨⟨s', i⟩, hmem, rfl⟩ := List.mem_map.1 h
    rw [List.mem_filter, decide_eq_true_eq] at hmem
    exact hmem.2 ▸ hmem.1
  · intro h
    exact List.mem_map.2 ⟨(s, .normal), List.mem_filter.2 ⟨h, rfl⟩, rfl⟩

/-- What was accepted is somewhere, and what waits is in order. -/
structure InLine (l : Lane) : Prop where
  traced : Traced MarkInOrder l.trace
  waiting : ∀ s ∈ acceptedNormal l.trace, s ∈ dispatchedSerials l.trace ∨
    s ∈ withdrawnSerials l.trace ∨ s ∈ l.pending.map (·.serial)
  sorted : (normals (tags l.live)).Pairwise (· < ·)
  intake : ∀ t ∈ tags l.live, t.1 ∈ acceptedNormal l.trace → t.2 = .normal

variable {localeCompare : Collation} {env : StepEnv} {l l' : Lane}

/-- A lane in which entries have moved, but no message has come or gone. -/
theorem InLine.of_trace (h : l.InLine) (htrace : l'.trace = l.trace)
    (hpending : l.pending.map (·.serial) ⊆ l'.pending.map (·.serial))
    (hlive : (tags l'.live).Sublist (tags l.live)) : l'.InLine where
  traced := htrace ▸ h.traced
  waiting s hs := by
    rw [htrace] at hs ⊢
    exact (h.waiting s hs).imp_right (Or.imp_right fun hmem => hpending hmem)
  sorted := h.sorted.sublist ((hlive.filter _).map _)
  intake t ht := by
    rw [htrace]
    exact h.intake t (hlive.subset ht)

theorem InLine.withdrawn (h : l.InLine) {kept : List PendingEntry} {serials : List Nat}
    (hkept : kept.Sublist l.pending)
    (hall : ∀ e ∈ l.pending, e ∈ kept ∨ e.serial ∈ serials) :
    (l.withdrawn kept serials).InLine where
  traced := traced_append_plain h.traced (by simp [Mark.Plain, Mark.acceptedSerials,
    Mark.dispatchedSerials])
  waiting s hs := by
    have hs' : s ∈ acceptedNormal l.trace := by
      simpa [Lane.withdrawn, Mark.acceptedNormal] using hs
    simp only [Lane.withdrawn, dispatchedSerials_append, withdrawnSerials_append, List.mem_append,
      dispatchedSerials_cons, withdrawnSerials_cons, Mark.withdrawnSerials]
    rcases h.waiting s hs' with hd | hw | hp
    · exact Or.inl (Or.inl hd)
    · exact Or.inr (Or.inl (Or.inl hw))
    · obtain ⟨e, he, rfl⟩ := List.mem_map.1 hp
      rcases hall e he with hk | hmem
      · exact Or.inr (Or.inr (List.mem_map_of_mem hk))
      · exact Or.inr (Or.inl (Or.inr (Or.inl hmem)))
  sorted := h.sorted.sublist ((((hkept.append_left l.active).map _).filter _).map _)
  intake t ht hs := h.intake t (((hkept.append_left l.active).map _).subset ht)
    (by simpa [Lane.withdrawn, Mark.acceptedNormal] using hs)

/-- In a list that grows, two members stand in their order. -/
theorem pair_sublist_of_pairwise {ns : List Nat} (h : ns.Pairwise (· < ·)) {a b : Nat}
    (ha : a ∈ ns) (hb : b ∈ ns) (hlt : a < b) : [a, b].Sublist ns := by
  induction ns with
  | nil => cases ha
  | cons n ns ih =>
    obtain ⟨hn, hns⟩ := List.pairwise_cons.1 h
    rcases List.mem_cons.1 ha with rfl | ha'
    · rcases List.mem_cons.1 hb with rfl | hb'
      · exact absurd hlt (Nat.lt_irrefl _)
      · exact (List.singleton_sublist.2 hb').cons_cons a
    · rcases List.mem_cons.1 hb with rfl | hb'
      · exact absurd hlt (Nat.lt_asymm (hn a ha'))
      · exact (ih hns ha' hb').cons n

/-- What waits, in order, makes a dispatch that is in order. -/
theorem InLine.dispatchInOrder (h : l.InLine) :
    DispatchInOrder l.trace (l.pending.map (·.serial)) := by
  intro s₁ hs₁ s₂ hs₂ hlt hwithdrawn hmem₂
  rcases h.waiting s₁ hs₁ with hd | hw | hmem₁
  · exact Or.inl hd
  · exact absurd hw hwithdrawn
  · have hnormal : ∀ s ∈ acceptedNormal l.trace, s ∈ l.pending.map (·.serial) →
        s ∈ normals (tags l.pending) := by
      intro s hs hmem
      rw [← fst_tags] at hmem
      obtain ⟨⟨s', i⟩, ht, rfl⟩ := List.mem_map.1 hmem
      have hi := h.intake (s', i) (by rw [live, tags_append]; exact List.mem_append_right _ ht) hs
      exact mem_normals.2 (hi ▸ ht)
    have hsorted : (normals (tags l.pending)).Pairwise (· < ·) :=
      h.sorted.sublist (by
        rw [live, tags_append, normals_append]
        exact List.sublist_append_right _ _)
    have hsub : (normals (tags l.pending)).Sublist (l.pending.map (·.serial)) :=
      fst_tags l.pending ▸ normals_sublist _
    exact Or.inr ((pair_sublist_of_pairwise hsorted (hnormal s₁ hs₁ hmem₁) (hnormal s₂ hs₂ hmem₂)
      hlt).trans hsub)

/-- A dispatch of all that waits. -/
theorem InLine.drained (h : l.InLine) (hactive : l.active = []) :
    (l.drained localeCompare env).InLine := by
  have hplain : ∀ ids ids', ∀ m ∈ [Mark.listed ids, .recorded ids'], m.Plain := by
    simp [Mark.Plain, Mark.acceptedSerials, Mark.dispatchedSerials]
  have htags : tags (l.drained localeCompare env).live = tags l.live := by
    simp [Lane.drained, live, hactive]
  have hnormal : acceptedNormal (l.drained localeCompare env).trace = acceptedNormal l.trace := by
    simp [Lane.drained, dispatchMarks, Mark.acceptedNormal]
  constructor
  · obtain ⟨ids, ids', htrace⟩ : ∃ ids ids', (l.drained localeCompare env).trace =
        l.trace ++ [.listed ids, .recorded ids'] ++
          [.dispatched (l.pending.map fun e => (e.serial, e.clientMessageId))] := by
      refine ⟨(l.pending.filter fun e => !e.timelineCommitted).map (·.clientMessageId),
        (l.pending.filter fun e => !e.historyCommitted).map (·.clientMessageId), ?_⟩
      rw [List.append_assoc]
      rfl
    rw [htrace]
    refine traced_concat.2 ⟨traced_append_plain h.traced (hplain _ _), ?_⟩
    rw [MarkInOrder, List.map_map]
    exact h.dispatchInOrder.append_plain (hplain _ _)
  · intro s hs
    rw [hnormal] at hs
    have hw := h.waiting s hs
    simp only [Lane.drained, dispatchMarks, dispatchedSerials_append, dispatchedSerials_cons,
      withdrawnSerials_append, withdrawnSerials_cons, Mark.dispatchedSerials,
      Mark.withdrawnSerials, List.map_map, List.mem_append]
    tauto
  · rw [htags]
    exact h.sorted
  · rw [htags, hnormal]
    exact h.intake

theorem InLine.move (h : l.InLine) (hmove : Move localeCompare env l l') : l'.InLine := by
  cases hmove with
  | drain hpending hactive hretry => exact h.drained hactive
  | release => exact h.of_trace rfl (List.Subset.refl _) (.refl _)
  | dropActive =>
    exact h.of_trace rfl (List.Subset.refl _) ((List.sublist_append_right l.active l.pending).map _)
  | disarm => exact h.of_trace rfl (List.Subset.refl _) (.refl _)
  | requeue =>
    exact h.of_trace rfl ((List.sublist_append_right l.active l.pending).map _).subset (.refl _)
  | retry hactive =>
    exact h.of_trace rfl ((List.sublist_append_right l.active l.pending).map _).subset (.refl _)
  | stopRetry hretry hcount =>
    have hall : ∀ e ∈ l.pending, e ∈ l.pending.drop l.retryEntryCount ∨
        e.serial ∈ (l.pending.take l.retryEntryCount).map (·.serial) := by
      intro e he
      rw [← List.take_append_drop l.retryEntryCount l.pending, List.mem_append] at he
      exact he.symm.imp_right List.mem_map_of_mem
    exact (h.withdrawn (List.drop_sublist _ _) hall).of_trace rfl (List.Subset.refl _) (.refl _)

theorem InLine.enqueue (h : l.InLine) (hn : l.WellNumbered) {e : PendingEntry}
    (he : e.serial = l.nextSerial) (hintake : e.intake ≠ .recovered) (store : StoreConn) :
    (l.enqueue e store).InLine := by
  have htrace : (l.enqueue e store).trace =
      l.trace ++ [.accepted e.serial e.intake e.clientMessageId] := rfl
  have hlt : ∀ s ∈ dispatchedSerials l.trace ++ acceptedSerials l.trace, s < e.serial := by
    intro s hs
    rw [he]
    exact (List.mem_append.1 hs).elim (hn.dispatched_lt s) (hn.accepted_lt s)
  have hnew : ∀ s ∈ normals (tags l.live), s < e.serial := by
    intro s hs
    rw [he]
    exact hn.live_lt s (fst_tags l.live ▸ (normals_sublist _).subset hs)
  have htags : ∃ ts ts', tags l.live = ts ++ ts' ∧
      tags (l.enqueue e store).live = ts ++ (e.serial, e.intake) :: ts' ∧
      (e.intake = .normal → ts' = []) := by
    unfold Lane.enqueue live
    cases hi : e.intake with
    | normal => exact ⟨tags l.live, [], by simp [live], by simp [tags, hi, live], fun _ => rfl⟩
    | front => exact ⟨tags l.active, tags l.pending, tags_append _ _, by simp [tags, hi],
      fun hnormal => by cases hnormal⟩
    | recovered => exact absurd hi hintake
  obtain ⟨ts, ts', hold, hnewtags, hend⟩ := htags
  constructor
  · rw [htrace]
    exact traced_concat.2 ⟨h.traced, hlt⟩
  · intro s hs
    rw [htrace] at hs ⊢
    rw [acceptedNormal_append, List.mem_append] at hs
    simp only [dispatchedSerials_append, withdrawnSerials_append, List.mem_append]
    rcases hs with hs | hs
    · rcases h.waiting s hs with hd | hw | hp
      · exact Or.inl (Or.inl hd)
      · exact Or.inr (Or.inl (Or.inl hw))
      · refine Or.inr (Or.inr ?_)
        unfold Lane.enqueue
        split
        · exact List.mem_cons_of_mem _ hp
        · rw [List.map_append]
          exact List.mem_append_left _ hp
    · have hs' : s = e.serial := by
        have := (acceptedNormal_sublist _).subset hs
        simpa [Mark.acceptedSerials] using this
      refine Or.inr (Or.inr (hs' ▸ List.mem_map_of_mem ?_))
      unfold Lane.enqueue
      split <;> simp
  · rw [hnewtags, normals_append]
    rw [hold, normals_append] at hnew
    have hsorted := h.sorted
    rw [hold, normals_append] at hsorted
    by_cases hi : e.intake = .normal
    · rw [hend hi] at hsorted hnew ⊢
      simp only [normals, List.filter_nil, List.map_nil, List.append_nil] at hsorted hnew
      simp only [normals, hi, decide_true, List.filter_cons_of_pos, List.filter_nil, List.map_cons,
        List.map_nil]
      exact List.pairwise_append.2 ⟨hsorted, List.pairwise_singleton _ _,
        fun s hs s' hs' => List.mem_singleton.1 hs' ▸ hnew s hs⟩
    · rw [show normals ((e.serial, e.intake) :: ts') = normals ts' by simp [normals, hi]]
      exact hsorted
  · intro t ht hs
    rw [htrace, acceptedNormal_append, List.mem_append] at hs
    have ht' : t ∈ tags l.live ∨ t = (e.serial, e.intake) := by
      rw [hnewtags] at ht
      rw [hold]
      simp only [List.mem_append, List.mem_cons] at ht ⊢
      tauto
    rcases ht' with ht' | rfl
    · rcases hs with hs | hs
      · exact h.intake t ht' hs
      · have hserial : t.1 = e.serial := by
          have := (acceptedNormal_sublist _).subset hs
          simpa [Mark.acceptedSerials] using this
        have := hn.live_lt t.1 (fst_tags l.live ▸ List.mem_map_of_mem ht')
        omega
    · rcases hs with hs | hs
      · have := hn.accepted_lt _ ((acceptedNormal_sublist _).subset hs)
        exact absurd this (Nat.not_lt.2 (Nat.le_of_eq he.symm))
      · cases hi : e.intake with
        | normal => rfl
        | _ => simp [hi, Mark.acceptedNormal] at hs

/-- A message that finds no other waiting may start a dispatch of its own. -/
theorem InLine.direct (h : l.InLine) (hn : l.WellNumbered) {e : PendingEntry}
    (he : e.serial = l.nextSerial) (hpending : l.pending = []) : (l.direct e).InLine := by
  have htrace : (l.direct e).trace = l.trace ++ [.accepted e.serial e.intake e.clientMessageId] ++
      [.sent e.clientMessageId,
        .recorded (([e].filter fun e => !e.historyCommitted).map (·.clientMessageId))] ++
      [.dispatched [(e.serial, e.clientMessageId)]] := by
    simp [Lane.direct, dispatchMarks]
  have hplain : ∀ id ids, ∀ m ∈ [Mark.sent id, .recorded ids], m.Plain := by
    simp [Mark.Plain, Mark.acceptedSerials, Mark.dispatchedSerials]
  have hlt : ∀ s ∈ dispatchedSerials l.trace ++ acceptedSerials l.trace, s < e.serial := by
    intro s hs
    rw [he]
    exact (List.mem_append.1 hs).elim (hn.dispatched_lt s) (hn.accepted_lt s)
  have hmem : ∀ s ∈ acceptedNormal (l.direct e).trace,
      s ∈ acceptedNormal l.trace ∨ s = e.serial ∧ e.intake = .normal := by
    intro s hs
    rw [htrace] at hs
    simp only [acceptedNormal_append, List.mem_append] at hs
    rcases hs with ((hs | hs) | hs) | hs
    · exact Or.inl hs
    · cases hi : e.intake <;> simp [hi, Mark.acceptedNormal] at hs
      exact Or.inr ⟨hs, rfl⟩
    · cases hs
    · cases hs
  have hdispatched : ∀ s ∈ acceptedNormal l.trace, s ∉ withdrawnSerials l.trace →
      s ∈ dispatchedSerials l.trace := by
    intro s hs hw
    rcases h.waiting s hs with hd | hw' | hp
    · exact hd
    · exact absurd hw' hw
    · rw [hpending] at hp
      cases hp
  constructor
  · rw [htrace]
    refine traced_concat.2 ⟨traced_append_plain (traced_concat.2 ⟨h.traced, hlt⟩) (hplain _ _), ?_⟩
    refine DispatchInOrder.append_plain ?_ (hplain _ _)
    intro s₁ hs₁ s₂ hs₂ hs₁₂ hw hs₂e
    rw [List.mem_singleton.1 hs₂e] at hs₁₂
    rw [acceptedNormal_append, List.mem_append] at hs₁
    simp only [withdrawnSerials_append, List.mem_append, not_or] at hw
    rw [dispatchedSerials_append]
    refine Or.inl (List.mem_append_left _ (hdispatched s₁ ?_ hw.1))
    refine hs₁.resolve_right fun hs₁ => ?_
    have := (acceptedNormal_sublist _).subset hs₁
    have hs₁e : s₁ = e.serial := by simpa [Mark.acceptedSerials] using this
    exact absurd hs₁₂ (hs₁e ▸ Nat.lt_irrefl _)
  · intro s hs
    have hall : dispatchedSerials (l.direct e).trace = dispatchedSerials l.trace ++ [e.serial] := by
      simp [Lane.direct, Mark.dispatchedSerials]
    have hwall : withdrawnSerials (l.direct e).trace = withdrawnSerials l.trace := by
      simp [Lane.direct, Mark.withdrawnSerials]
    rw [hall, hwall, List.mem_append]
    rcases hmem s hs with hs | ⟨rfl, -⟩
    · exact (h.waiting s hs).imp_left Or.inl
    · exact Or.inl (Or.inr (List.mem_singleton_self _))
  · have hlive : tags (l.direct e).live = [(e.serial, e.intake)] := by
      simp [tags, Lane.direct, live, hpending]
    rw [hlive]
    exact (List.pairwise_singleton _ e.serial).sublist (normals_sublist [(e.serial, e.intake)])
  · intro t ht hs
    have hlive : tags (l.direct e).live = [(e.serial, e.intake)] := by
      simp [tags, Lane.direct, live, hpending]
    rw [hlive] at ht
    rw [List.mem_singleton.1 ht] at hs ⊢
    rcases hmem _ hs with hs | ⟨-, hi⟩
    · exact absurd (hn.accepted_lt _ ((acceptedNormal_sublist _).subset hs))
        (Nat.not_lt.2 (Nat.le_of_eq he.symm))
    · exact hi

theorem InLine.recover (h : l.InLine) (hn : l.WellNumbered)
    (messages : List PendingTransportMessage) (store : StoreConn) :
    (l.recover messages store).InLine := by
  have hplain : ∀ m ∈ (TransportSessionRuntime.recoveredEntries l.nextSerial messages).map
      fun e => Mark.recovered e.serial e.clientMessageId, m.Plain := by
    simp [Mark.Plain, Mark.acceptedSerials, Mark.dispatchedSerials]
  have hnormal : acceptedNormal (l.recover messages store).trace = acceptedNormal l.trace := by
    simp [Lane.recover, acceptedNormal, Mark.acceptedNormal]
  have htags : tags (l.recover messages store).live =
      tags l.live ++ tags (TransportSessionRuntime.recoveredEntries l.nextSerial messages) := by
    simp [Lane.recover, live]
  have hrecovered : ∀ t ∈ tags (TransportSessionRuntime.recoveredEntries l.nextSerial messages),
      t.2 = .recovered ∧ l.nextSerial ≤ t.1 := by
    intro t ht
    obtain ⟨e, he, rfl⟩ := List.mem_map.1 ht
    refine ⟨TransportSessionRuntime.intake_of_mem_recoveredEntries he, ?_⟩
    have hserial := List.mem_map_of_mem he (f := fun e : PendingEntry => e.serial)
    rw [TransportSessionRuntime.serial_recoveredEntries] at hserial
    exact (List.mem_range'_1.1 hserial).1
  constructor
  · exact traced_append_plain h.traced hplain
  · intro s hs
    rw [hnormal] at hs
    rcases h.waiting s hs with hd | hw | hp
    · exact Or.inl (by simpa [Lane.recover] using Or.inl hd)
    · exact Or.inr (Or.inl (by simpa [Lane.recover] using Or.inl hw))
    · exact Or.inr (Or.inr (by simpa [Lane.recover] using Or.inl hp))
  · rw [htags, normals_append]
    have hnone : normals (tags (TransportSessionRuntime.recoveredEntries l.nextSerial messages)) =
        [] := by
      refine List.map_eq_nil_iff.2 (List.filter_eq_nil_iff.2 fun t ht => ?_)
      simp [(hrecovered t ht).1]
    rw [hnone, List.append_nil]
    exact h.sorted
  · intro t ht hs
    rw [htags, List.mem_append] at ht
    rw [hnormal] at hs
    rcases ht with ht | ht
    · exact h.intake t ht hs
    · exact absurd (hn.accepted_lt _ ((acceptedNormal_sublist _).subset hs))
        (Nat.not_lt.2 (hrecovered t ht).2)

theorem InLine.cleared (h : l.InLine) (store : StoreConn) : (l.cleared store).InLine :=
  (h.withdrawn (List.nil_sublist l.pending) fun _ he => Or.inr (List.mem_map_of_mem he)).of_trace
    rfl (List.Subset.refl _) (List.nil_sublist _)

end Lane

namespace TransportSessionRuntime

variable {localeCompare : Collation} {env : StepEnv} {rt : TransportSessionRuntime}

/-! ## Runs -/

/-- A message that `send` accepts finds no other waiting, or something is going on. -/
def SendsInLine (rt : TransportSessionRuntime) (p : StepEnv × Event) : Prop :=
  ∀ input, p.2 = .send input → rt.sendRefusal input = none →
    rt.pendingMessages = [] ∨ rt.hasActiveTurnWork p.1.view = true

/-- A message that starts a turn of its own finds no other waiting. -/
def OvertakesNone (localeCompare : Collation) (rt : TransportSessionRuntime)
    (p : StepEnv × Event) : Prop :=
  ∀ input, p.2 = .send input → (send localeCompare p.1 input rt).1 = .sent →
    rt.pendingMessages = []

theorem send_eq_sent_iff (input : SendInput) :
    (send localeCompare env input rt).1 = .sent ↔
      rt.sendRefusal input = none ∧ rt.hasActiveTurnWork env.view = false := by
  unfold send
  cases rt.sendRefusal input with
  | some message => simp
  | none => cases rt.hasActiveTurnWork env.view <;> simp

/-- A step overtakes nothing exactly when its message is in line. -/
theorem overtakesNone_iff (p : StepEnv × Event) :
    OvertakesNone localeCompare rt p ↔ rt.SendsInLine p := by
  refine forall_congr' fun input => forall_congr' fun _ => ?_
  rw [send_eq_sent_iff]
  cases rt.hasActiveTurnWork p.1.view <;> simp

theorem intake_entry_ne_recovered (input : SendInput) (uuid : String) (serial : Nat) :
    (input.entry uuid serial).intake ≠ .recovered := by
  unfold SendInput.entry
  dsimp only
  split <;> exact nofun

theorem inLine_moves {l l' : Lane} (hmoves : Lane.Moves localeCompare env l l') (h : l.InLine) :
    l'.InLine :=
  reflTransGen_invariant Lane.InLine (fun _ _ hm h => h.move hm) hmoves h

/-- A step whose message is in line keeps the line. -/
theorem inLine_step (h : rt.lane.InLine) (hn : rt.lane.WellNumbered) (e : Event)
    (hover : OvertakesNone localeCompare rt (env, e)) :
    (step localeCompare env rt e).lane.InLine := by
  have hspec := step_lane localeCompare env rt e
  have hsent : ∀ input, e = .send input → rt.hasActiveTurnWork env.view = false →
      (step localeCompare env rt e).lane =
        rt.lane.direct { input.entry env.uuid rt.nextSerial with timelineCommitted := true } →
      rt.pendingMessages = [] ∨ (step localeCompare env rt e).lane = rt.lane := by
    rintro input rfl hidle -
    cases hrefused : rt.sendRefusal input with
    | some message => exact Or.inr (by simp [step, send, hrefused])
    | none => exact Or.inl (hover input rfl (send_eq_sent_iff input |>.2 ⟨hrefused, hidle⟩))
  generalize (step localeCompare env rt e).lane = l at hspec hsent ⊢
  cases hspec with
  | turns hmoves => exact inLine_moves hmoves h
  | queued hbusy => exact h.enqueue hn rfl (intake_entry_ne_recovered _ _ _) _
  | @sent input hidle =>
    rcases hsent input rfl hidle rfl with hpending | heq
    · exact h.direct hn rfl hpending
    · rwa [heq]
  | edited hmem =>
    refine h.of_trace rfl ?_ ?_
    · simp [Lane.edited]
    · simp [Lane.live, Lane.edited]
  | @removed id e hfind =>
    refine (h.withdrawn List.eraseP_sublist fun e' he' => ?_).of_trace rfl (List.Subset.refl _)
      (.refl _)
    obtain ⟨es, es', hpending, herase⟩ := TransportSessionRuntime.eraseP_of_find? hfind
    have hmem : e' ∈ es ++ e :: es' := hpending ▸ he'
    rw [show rt.lane.pending.eraseP _ = es ++ es' from herase]
    simp only [List.mem_append, List.mem_cons, List.not_mem_nil, or_false] at hmem ⊢
    rcases hmem with hmem | rfl | hmem
    · exact Or.inl (Or.inl hmem)
    · exact Or.inr rfl
    · exact Or.inl (Or.inr hmem)
  | @removedByPrefix commandIdPrefix =>
    refine h.withdrawn List.filter_sublist fun e' he' => ?_
    cases hp : jsStartsWith e'.clientMessageId commandIdPrefix with
    | false => exact Or.inl (List.mem_filter.2 ⟨he', by simp [hp]⟩)
    | true => exact Or.inr (List.mem_map_of_mem (List.mem_filter.2 ⟨he', hp⟩))
  | recovered store => exact h.recover hn _ store
  | killed store hmoves => exact inLine_moves hmoves (h.cleared store)

theorem inLine_create (provider : Provider) (sessionKey : String) (store : StoreConn) :
    (create provider sessionKey store).lane.InLine :=
  ⟨traced_nil, fun _ hs => (nomatch hs), List.Pairwise.nil, fun _ ht => (nomatch ht)⟩

/-- **Ordinary messages reach the provider in send order** exactly when no
message is sent while others wait and nothing is going on. -/
theorem in_send_order_iff (localeCompare : Collation) (provider : Provider) (sessionKey : String)
    (store : StoreConn) (steps : Steps) :
    let rt := create provider sessionKey store
    let after := fun (rt : TransportSessionRuntime) p => step localeCompare p.1 rt p.2
    (InOrder (run localeCompare steps rt).trace ∧
        Along after (OvertakesNone localeCompare) steps rt) ↔
      Along after SendsInLine steps rt := by
  intro rt after
  have hiff : Along after (OvertakesNone localeCompare) steps rt ↔ Along after SendsInLine steps rt :=
    ⟨Along.imp fun _ p => (overtakesNone_iff p).1, Along.imp fun _ p => (overtakesNone_iff p).2⟩
  rw [hiff]
  refine ⟨And.right, fun h => ⟨?_, h⟩⟩
  have hinv : (run localeCompare steps rt).lane.InLine ∧
      (run localeCompare steps rt).lane.WellNumbered :=
    run_invariant (fun rt => rt.lane.InLine ∧ rt.lane.WellNumbered)
      (fun rt p hrt hp => ⟨inLine_step hrt.1 hrt.2 p.2 hp, wellNumbered_step hrt.2 p.2⟩)
      ⟨inLine_create provider sessionKey store, wellNumbered_create provider sessionKey store⟩
      (hiff.2 h)
  exact inOrder_of_traced hinv.1.traced

/-! ### An unrecoverable error -/

/-- A message is running and another waits when the provider fails for good. -/
def unrecoverableRun : Steps :=
  [(exampleStepEnv "u", .setProviderSessionId "s"),
    (exampleStepEnv "u", .send { message := "one", clientMessageId := some "m1" }),
    (exampleStepEnv "u", .send { message := "two", clientMessageId := some "m2" }),
    (exampleStepEnv "u", .onError 1 "s" ⟨"AUTH_FAILED", "no", false, none⟩),
    (exampleStepEnv "u", .send { message := "three", clientMessageId := some "m3" })]

/-- **A message may overtake another**: the one that is sent after an error that
ends the turn without a drain. -/
theorem not_in_send_order :
    ¬ ∀ (localeCompare : Collation) (provider : Provider) (sessionKey : String)
      (store : StoreConn) (steps : Steps),
      InOrder (run localeCompare steps (create provider sessionKey store)).trace := by
  intro h
  have htrace := h (fun _ _ => 0) exampleProvider "deck" (freshConn fun _ => none) unrecoverableRun
  have hlate := htrace 1 2 (by decide) (by decide)
    [.accepted 0 .normal "m1", .sent "m1", .recorded ["m1"], .dispatched [(0, "m1")],
      .accepted 1 .normal "m2", .accepted 2 .normal "m3", .sent "m3", .recorded ["m3"]]
    [(2, "m3")] (by decide) (by decide)
  exact absurd hlate (by decide)

end TransportSessionRuntime

end Imcodes.Transport
