import Imcodes.Collections.OrderedMap
import Imcodes.Timeline.Preference

/-!
# Merging timeline events into a list

`mergeTimelineEvents` puts a batch of events into a list: events that the list has already give
way, in their place, to preferred versions, and the other ones are merged in by time.

* `keeps_mergeTimelineEvents` — while everything fits, the list has the preferred version of
  every event that was delivered, once.
* `sublist_mergeTimelineEvents` — what is in the list already keeps its order.
* `mergeConverges_iff` — every way of delivering the same events ends in the same list, in order of
  time, exactly when the versions of two events never change sides.
-/

namespace Imcodes.Timeline

/-- `incomingById`, with the preferred event of every id in a batch -/
def incomingById (incomingEvents : List TimelineEvent) : OrderedMap String TimelineEvent :=
  incomingEvents.foldl (fun byId event =>
    byId.set event.eventId (((byId.get? event.eventId).map
      fun prev => preferTimelineEvent prev event).getD event)) OrderedMap.empty

/-- What the pass over the existing events leaves. -/
structure Replaced where
  /-- `replaced` -/
  events : List TimelineEvent
  /-- `incomingById`, without the events that were met -/
  rest : OrderedMap String TimelineEvent
  /-- `changed`; an event that is delivered counts as another object than the one in the list,
  which shows only when a list without new events is too long and gets cut. -/
  changed : Bool

/-- `existingEvents.map(…)` -/
def replaceExisting : List TimelineEvent → OrderedMap String TimelineEvent → Replaced
  | [], byId => ⟨[], byId, false⟩
  | event :: events, byId =>
    match byId.get? event.eventId with
    | none =>
      let after := replaceExisting events byId
      ⟨event :: after.events, after.rest, after.changed⟩
    | some next =>
      let after := replaceExisting events (byId.delete event.eventId)
      ⟨preferTimelineEvent event next :: after.events, after.rest,
        prefersIncoming event next || after.changed⟩

/-- `left.ts < right.ts || (left.ts === right.ts && left.seq <= right.seq)` -/
def comesFirst (left right : TimelineEvent) : Bool :=
  left.ts < right.ts || left.ts = right.ts && left.seq ≤ right.seq

/-- `[...incomingById.values()].sort((a, b) => a.ts - b.ts || a.seq - b.seq)` -/
def newEvents (byId : OrderedMap String TimelineEvent) : List TimelineEvent :=
  byId.values.insertionSort fun a b => comesFirst a b

/-- `mergeTimelineEvents` -/
def mergeTimelineEvents (existingEvents incomingEvents : List TimelineEvent)
    (maxEvents : ℕ := 300) : List TimelineEvent :=
  let replaced := replaceExisting existingEvents (incomingById incomingEvents)
  let newEvents := newEvents replaced.rest
  if !replaced.changed && newEvents.isEmpty then existingEvents
  else
    let merged := replaced.events.merge newEvents comesFirst
    if merged.length > maxEvents then merged.drop (merged.length - maxEvents) else merged

/-- The list after a number of batches, starting without any events. -/
def deliver (maxEvents : ℕ) (batches : List (List TimelineEvent)) : List TimelineEvent :=
  batches.foldl (mergeTimelineEvents · · maxEvents) []

/-! ## The pieces of a merge -/

/-- The place of an event in the order of time. -/
def position (event : TimelineEvent) : ℚ ×ₗ ℚ := toLex (event.ts, event.seq)

variable {existing incoming : List TimelineEvent} {versions : Set TimelineEvent}
  {byId : OrderedMap String TimelineEvent} {left right event : TimelineEvent} {maxEvents : ℕ}

theorem comesFirst_iff : comesFirst left right = true ↔ position left ≤ position right := by
  simp [comesFirst, position, Prod.Lex.toLex_le_toLex]

/-- The preferred event of every id in a batch. -/
theorem summarises_incomingById (incoming : List TimelineEvent) : Versions.Summarises TimelineEvent.eventId preference
    {event | event ∈ incoming} (incomingById incoming).get? := by
  induction incoming using List.reverseRecOn with
  | nil =>
    refine (iff_of_eq (congrArg₂ _ ?_ rfl)).mp Versions.summarises_empty
    ext event
    simp
  | append_singleton events event ih =>
    have hset : {e | e ∈ events ++ [event]} = insert event {e | e ∈ events} := by
      ext e
      simp [or_comm]
    have hmap : incomingById (events ++ [event]) = (incomingById events).set event.eventId
        ((((incomingById events).get? event.eventId).map
          fun prev => preferTimelineEvent prev event).getD event) := by
      rw [incomingById, List.foldl_append]
      rfl
    rw [hset, hmap]
    refine ih.insert ?_ fun k hk => ?_
    · rw [OrderedMap.get?_set, if_pos rfl]
      simp only [preferTimelineEvent_eq]
    · rw [OrderedMap.get?_set, if_neg hk]

/-- Events of which the list has every id once are replaced one by one. -/
theorem events_replaceExisting (hnodup : (existing.map TimelineEvent.eventId).Nodup) :
    (replaceExisting existing byId).events =
      Versions.replace TimelineEvent.eventId preference byId.get? existing := by
  induction existing generalizing byId with
  | nil => rfl
  | cons event events ih =>
    obtain ⟨hnot, hevents⟩ := List.nodup_cons.1 hnodup
    have hrest : Versions.replace TimelineEvent.eventId preference
        (byId.delete event.eventId).get? events =
          Versions.replace TimelineEvent.eventId preference byId.get? events := by
      refine List.map_congr_left fun other hother => ?_
      have hne : other.eventId ≠ event.eventId := fun h =>
        hnot (h ▸ List.mem_map_of_mem hother)
      rw [OrderedMap.get?_delete, if_neg hne]
    rw [replaceExisting, Versions.replace, List.map_cons]
    cases hnext : byId.get? event.eventId with
    | none => exact congrArg (event :: ·) (ih hevents)
    | some next =>
      dsimp only
      rw [ih hevents, hrest, preferTimelineEvent_eq]
      rfl

/-- The events of the batch that the list does not have are left over. -/
theorem get?_rest_replaceExisting {id : String} :
    (replaceExisting existing byId).rest.get? id =
      if id ∈ existing.map TimelineEvent.eventId then none else byId.get? id := by
  induction existing generalizing byId with
  | nil => rfl
  | cons event events ih =>
    rw [replaceExisting, List.map_cons]
    cases hnext : byId.get? event.eventId with
    | none =>
      dsimp only
      rw [ih]
      by_cases hid : id = event.eventId
      · subst hid
        simp [hnext]
      · simp [hid]
    | some next =>
      dsimp only
      rw [ih, OrderedMap.get?_delete]
      by_cases hid : id = event.eventId
      · simp [hid]
      · simp [hid]

theorem mem_newEvents : event ∈ newEvents byId ↔ ∃ id, byId.get? id = some event := by
  simp only [newEvents, List.mem_insertionSort, OrderedMap.values, List.mem_map, Prod.exists,
    exists_eq_right, OrderedMap.get?_eq_some]

theorem perm_newEvents : (newEvents byId).Perm byId.values := List.perm_insertionSort _ _

theorem pairwise_newEvents :
    (newEvents byId).Pairwise fun a b => position a ≤ position b := by
  have htotal : Std.Total fun a b : TimelineEvent => comesFirst a b = true :=
    ⟨fun a b => by simpa only [comesFirst_iff] using le_total (position a) (position b)⟩
  have htrans : IsTrans TimelineEvent fun a b => comesFirst a b = true :=
    ⟨fun a b c => by simpa only [comesFirst_iff] using le_trans⟩
  exact (List.pairwise_insertionSort (fun a b => comesFirst a b = true) byId.values).imp
    comesFirst_iff.1

/-- An existing event that is not replaced stays as it is. -/
theorem events_of_not_changed (h : (replaceExisting existing byId).changed = false) :
    (replaceExisting existing byId).events = existing := by
  induction existing generalizing byId with
  | nil => rfl
  | cons event events ih =>
    rw [replaceExisting] at h ⊢
    cases hnext : byId.get? event.eventId with
    | none =>
      rw [hnext] at h
      exact congrArg (event :: ·) (ih h)
    | some next =>
      rw [hnext] at h
      obtain ⟨hprefers, hchanged⟩ := Bool.or_eq_false_iff.1 h
      dsimp only
      rw [ih hchanged, preferTimelineEvent, hprefers]
      rfl

/-- The list before it is cut. -/
def merged (existing incoming : List TimelineEvent) : List TimelineEvent :=
  let replaced := replaceExisting existing (incomingById incoming)
  replaced.events.merge (newEvents replaced.rest) comesFirst

theorem mergeTimelineEvents_eq (h : (merged existing incoming).length ≤ maxEvents) :
    mergeTimelineEvents existing incoming maxEvents = merged existing incoming := by
  unfold mergeTimelineEvents
  dsimp only
  split
  · rename_i hsame
    rw [Bool.and_eq_true, Bool.not_eq_true', List.isEmpty_iff] at hsame
    rw [merged, hsame.2, List.merge_right, events_of_not_changed hsame.1]
  · exact if_neg (not_lt.2 h)

/-! ## What a merge keeps -/

theorem keeps_merged (incoming : List TimelineEvent)
    (h : Versions.Keeps TimelineEvent.eventId preference versions existing) :
    Versions.Keeps TimelineEvent.eventId preference (versions ∪ {event | event ∈ incoming})
      (merged existing incoming) := by
  obtain ⟨byId, hbyId⟩ : ∃ byId, byId = (replaceExisting existing (incomingById incoming)).rest :=
    ⟨_, rfl⟩
  have hsum := summarises_incomingById incoming
  have hrest : ∀ id event, byId.get? id = some event ↔
      (incomingById incoming).get? id = some event ∧ id ∉ existing.map TimelineEvent.eventId := by
    intro id event
    rw [hbyId, get?_rest_replaceExisting]
    by_cases hid : id ∈ existing.map TimelineEvent.eventId
    · simp [hid]
    · simp [hid]
  have hkey : ∀ id event, byId.get? id = some event → event.eventId = id :=
    fun id event hget => (hsum.best id event ((hrest id event).1 hget).1).1
  have hids : byId.values.map TimelineEvent.eventId = byId.toList.map Prod.fst := by
    rw [OrderedMap.values, List.map_map]
    exact List.map_congr_left fun p hp => hkey p.1 p.2 (OrderedMap.get?_eq_some.2 hp)
  have hnodup : ((newEvents byId).map TimelineEvent.eventId).Nodup := by
    rw [(perm_newEvents.map _).nodup_iff, hids]
    exact byId.nodup
  refine h.absorb hsum hnodup (fun event => ?_) ?_
  · rw [mem_newEvents]
    constructor
    · rintro ⟨id, hget⟩
      obtain rfl := hkey id event hget
      exact (hrest _ _).1 hget
    · exact fun hnew => ⟨event.eventId, (hrest _ _).2 hnew⟩
  · rw [merged, ← hbyId, events_replaceExisting h.nodup]
    exact List.merge_perm_append comesFirst

theorem sublist_merged (hnodup : (existing.map TimelineEvent.eventId).Nodup) :
    (existing.map TimelineEvent.eventId).Sublist
      ((merged existing incoming).map TimelineEvent.eventId) := by
  rw [merged, events_replaceExisting hnodup, ← Versions.map_key_replace (l := existing)
    (summarises_incomingById incoming)]
  exact Versions.sublist_merge.map _

theorem pairwise_merged (h : (replaceExisting existing (incomingById incoming)).events.Pairwise
    fun a b => position a ≤ position b) :
    (merged existing incoming).Pairwise fun a b => position a ≤ position b := by
  refine (List.pairwise_merge ?_ ?_ _ _ (h.imp comesFirst_iff.2)
    (pairwise_newEvents.imp comesFirst_iff.2)).imp comesFirst_iff.1
  · intro a b c
    rw [comesFirst_iff, comesFirst_iff, comesFirst_iff]
    exact le_trans
  · intro a b
    rw [Bool.or_eq_true, comesFirst_iff, comesFirst_iff]
    exact le_total _ _

/-! ## Deliveries -/

/-- Versions of an event of the same preference are the same, and different events have different
places in the order of time. -/
structure Distinguished (events : Set TimelineEvent) : Prop where
  same : ∀ a ∈ events, ∀ b ∈ events, a.eventId = b.eventId →
    getCompletenessRank a = getCompletenessRank b → isStreaming a = isStreaming b →
    a.epoch = b.epoch → a.seq = b.seq → a.ts = b.ts → a = b
  different : ∀ a ∈ events, ∀ b ∈ events, a.eventId ≠ b.eventId → (a.ts, a.seq) ≠ (b.ts, b.seq)

/-- The batches bring these events, in any order and any number of times. -/
def Delivers (batches : List (List TimelineEvent)) (events : Set TimelineEvent) : Prop :=
  ∀ event, event ∈ events ↔ ∃ batch ∈ batches, event ∈ batch

/-- One event of every id, the preferred one, in order of time. -/
structure IsTimeline (events : Set TimelineEvent) (timeline : List TimelineEvent) : Prop where
  nodup : (timeline.map TimelineEvent.eventId).Nodup
  all : ∀ event ∈ events, event.eventId ∈ timeline.map TimelineEvent.eventId
  mem_iff : ∀ event, event ∈ timeline ↔ event ∈ events ∧
    ∀ other ∈ events, other.eventId = event.eventId → preferTimelineEvent other event = event
  sorted : timeline.Pairwise fun a b => a.ts < b.ts ∨ a.ts = b.ts ∧ a.seq < b.seq

/-- Every way of delivering the events ends in one list, the timeline of the events. -/
def Converges (maxEvents : ℕ) (events : Set TimelineEvent) : Prop :=
  ∃ timeline, IsTimeline events timeline ∧
    ∀ batches, Delivers batches events → deliver maxEvents batches = timeline

/-- A version of an event that is before a version of another one is before all its versions,
and so are all versions of the first event. -/
def NeverCross (events : Set TimelineEvent) : Prop :=
  ∀ a ∈ events, ∀ a' ∈ events, ∀ b ∈ events, ∀ b' ∈ events,
    a'.eventId = a.eventId → b'.eventId = b.eventId → a.eventId ≠ b.eventId →
    (a.ts < b.ts ∨ a.ts = b.ts ∧ a.seq < b.seq) → a'.ts < b'.ts ∨ a'.ts = b'.ts ∧ a'.seq < b'.seq

theorem position_lt_iff {a b : TimelineEvent} :
    position a < position b ↔ a.ts < b.ts ∨ a.ts = b.ts ∧ a.seq < b.seq := by
  simp [position, Prod.Lex.toLex_lt_toLex]

theorem neverCross_iff {events : Set TimelineEvent} :
    NeverCross events ↔ Versions.NeverCross TimelineEvent.eventId position events := by
  simp only [NeverCross, Versions.NeverCross, position_lt_iff]

theorem orInfinity_injective : Function.Injective orInfinity
  | none, none, _ => rfl
  | none, some _, h => absurd h WithBot.bot_ne_coe
  | some _, none, h => absurd h WithBot.coe_ne_bot
  | some _, some _, h => congrArg some (WithBot.coe_injective h)

section Deliveries

variable {events : Finset TimelineEvent} {batches : List (List TimelineEvent)}
  {a b : TimelineEvent}

/-- Two versions of an event that are preferred alike are the same. -/
theorem Distinguished.eq (h : Distinguished (events : Set TimelineEvent)) (ha : a ∈ events)
    (hb : b ∈ events) (hid : a.eventId = b.eventId) (hrank : preference a = preference b) :
    a = b := by
  have hrank := congrArg ofLex hrank
  simp only [preference, ofLex_toLex, Prod.mk.injEq, EmbeddingLike.apply_eq_iff_eq,
    Bool.not_inj_iff] at hrank
  obtain ⟨hcompleteness, hstreaming, hepoch, hseq, hts⟩ := hrank
  exact h.same a (Finset.mem_coe.2 ha) b (Finset.mem_coe.2 hb) hid hcompleteness hstreaming
    (orInfinity_injective hepoch) hseq hts

theorem Distinguished.position_ne (h : Distinguished (events : Set TimelineEvent))
    (ha : a ∈ events) (hb : b ∈ events) (hid : a.eventId ≠ b.eventId) :
    position a ≠ position b := fun heq =>
  h.different a (Finset.mem_coe.2 ha) b (Finset.mem_coe.2 hb) hid (congrArg ofLex heq)

/-- The events of some batches. -/
def delivered (batches : List (List TimelineEvent)) : Set TimelineEvent :=
  {event | ∃ batch ∈ batches, event ∈ batch}

theorem delivered_append_singleton {batch : List TimelineEvent} :
    delivered (batches ++ [batch]) = delivered batches ∪ {event | event ∈ batch} := by
  ext event
  simp [delivered, or_and_right, exists_or]

theorem deliver_append_singleton {batch : List TimelineEvent} :
    deliver maxEvents (batches ++ [batch]) =
      mergeTimelineEvents (deliver maxEvents batches) batch maxEvents := List.foldl_append

/-- The events fit into the list, whatever is delivered of them. -/
structure Fits (maxEvents : ℕ) (events : Finset TimelineEvent)
    (batches : List (List TimelineEvent)) : Prop where
  card_le : (events.image TimelineEvent.eventId).card ≤ maxEvents
  subset : delivered batches ⊆ events

theorem Fits.of_append {batch : List TimelineEvent}
    (h : Fits maxEvents events (batches ++ [batch])) : Fits maxEvents events batches := by
  refine ⟨h.card_le, fun event hevent => h.subset ?_⟩
  rw [delivered_append_singleton]
  exact Or.inl hevent

/-- The list has the preferred version of everything that was delivered. -/
theorem keeps_deliver (h : Fits maxEvents events batches) :
    Versions.Keeps TimelineEvent.eventId preference (delivered batches)
      (deliver maxEvents batches) := by
  induction batches using List.reverseRecOn with
  | nil =>
    refine (iff_of_eq (congrArg₂ _ ?_ rfl)).mp Versions.keeps_nil
    ext event
    simp [delivered]
  | append_singleton batches batch ih =>
    have hmerged := keeps_merged batch (ih h.of_append)
    rw [← delivered_append_singleton] at hmerged
    rw [deliver_append_singleton,
      mergeTimelineEvents_eq ((hmerged.length_le h.subset).trans h.card_le)]
    exact hmerged

/-- Nothing is cut. -/
theorem deliver_append_eq_merged {batch : List TimelineEvent}
    (h : Fits maxEvents events (batches ++ [batch])) :
    deliver maxEvents (batches ++ [batch]) = merged (deliver maxEvents batches) batch := by
  have hmerged := keeps_merged batch (keeps_deliver h.of_append)
  rw [← delivered_append_singleton] at hmerged
  rw [deliver_append_singleton,
    mergeTimelineEvents_eq ((hmerged.length_le h.subset).trans h.card_le)]

/-- Events that are in the list keep their order. -/
theorem sublist_deliver {batch : List TimelineEvent}
    (h : Fits maxEvents events (batches ++ [batch])) :
    ((deliver maxEvents batches).map TimelineEvent.eventId).Sublist
      ((deliver maxEvents (batches ++ [batch])).map TimelineEvent.eventId) := by
  rw [deliver_append_eq_merged h]
  exact sublist_merged (keeps_deliver h.of_append).nodup

/-- Different events of a list have different places. -/
theorem pairwise_lt_of_le {timeline : List TimelineEvent}
    (hdistinguished : Distinguished (events : Set TimelineEvent))
    (hsub : ∀ event ∈ timeline, event ∈ events)
    (hnodup : (timeline.map TimelineEvent.eventId).Nodup)
    (h : timeline.Pairwise fun a b => position a ≤ position b) :
    timeline.Pairwise fun a b => position a < position b := by
  have hids : timeline.Pairwise fun a b => a.eventId ≠ b.eventId := List.pairwise_map.1 hnodup
  refine (h.and hids).imp_of_mem ?_
  rintro a b ha hb ⟨hle, hne⟩
  exact hle.lt_of_ne (hdistinguished.position_ne (hsub a ha) (hsub b hb) hne)

/-- The list stays in order while versions do not change sides. -/
theorem pairwise_deliver (hdistinguished : Distinguished (events : Set TimelineEvent))
    (hcross : NeverCross (events : Set TimelineEvent)) (h : Fits maxEvents events batches) :
    (deliver maxEvents batches).Pairwise fun a b => position a < position b := by
  induction batches using List.reverseRecOn with
  | nil => exact List.Pairwise.nil
  | append_singleton batches batch ih =>
    have hkeeps := keeps_deliver h
    have hkeeps' := keeps_deliver h.of_append
    have hbatch : {event | event ∈ batch} ⊆ (events : Set TimelineEvent) := by
      refine fun event hevent => h.subset ?_
      rw [delivered_append_singleton]
      exact Or.inr hevent
    refine pairwise_lt_of_le hdistinguished
      (fun event hevent => Finset.mem_coe.1 (h.subset (hkeeps.best event hevent).mem))
      hkeeps.nodup ?_
    rw [deliver_append_eq_merged h]
    refine pairwise_merged ?_
    rw [events_replaceExisting hkeeps'.nodup]
    exact (Versions.pairwise_replace hkeeps' (summarises_incomingById batch) (neverCross_iff.1 hcross)
      h.of_append.subset hbatch (ih h.of_append)).imp le_of_lt

/-- A list in order that has the preferred versions of the events is their timeline. -/
theorem isTimeline_of_keeps {timeline : List TimelineEvent}
    (hdistinguished : Distinguished (events : Set TimelineEvent))
    (hkeeps : Versions.Keeps TimelineEvent.eventId preference (events : Set TimelineEvent) timeline)
    (hsorted : timeline.Pairwise fun a b => position a < position b) :
    IsTimeline (events : Set TimelineEvent) timeline := by
  refine ⟨hkeeps.nodup, hkeeps.all, fun event => ⟨fun hevent => ?_, ?_⟩,
    hsorted.imp position_lt_iff.1⟩
  · obtain ⟨hmem, hbest⟩ := hkeeps.best event hevent
    refine ⟨hmem, fun other hother hid => ?_⟩
    rw [preferTimelineEvent_eq]
    exact if_pos (hbest other hother hid)
  · rintro ⟨hmem, hpreferred⟩
    obtain ⟨kept, hkept, hid⟩ := List.mem_map.1 (hkeeps.all event hmem)
    obtain ⟨hmem', hbest⟩ := hkeeps.best kept hkept
    have hprefer := hpreferred kept hmem' hid
    rw [preferTimelineEvent_eq, Versions.prefer] at hprefer
    split at hprefer
    · rename_i hle
      have hrank := hle.antisymm (hbest event hmem hid.symm)
      rwa [← hdistinguished.eq hmem' hmem hid hrank]
    · rwa [← hprefer]

theorem delivers_pair (ha : a ∈ events) (hb : b ∈ events) :
    Delivers [[a, b], events.toList] (events : Set TimelineEvent) := by
  intro event
  simp only [Finset.mem_coe, List.mem_cons, List.not_mem_nil, or_false, exists_eq_or_imp,
    exists_eq_left, Finset.mem_toList]
  constructor
  · exact Or.inr
  · rintro ((rfl | rfl) | h)
    · exact ha
    · exact hb
    · exact h

/-- Two events that are delivered first stay in the order in which they are then. -/
theorem sublist_deliver_pair (hcard : (events.image TimelineEvent.eventId).card ≤ maxEvents)
    (ha : a ∈ events) (hb : b ∈ events) (hne : a.eventId ≠ b.eventId)
    (hlt : position a < position b) :
    [a.eventId, b.eventId].Sublist
      ((deliver maxEvents [[a, b], events.toList]).map TimelineEvent.eventId) := by
  have hfits : Fits maxEvents events ([[a, b]] ++ [events.toList]) := by
    refine ⟨hcard, ?_⟩
    rintro event ⟨batch, hbatch, hevent⟩
    rcases List.mem_cons.1 hbatch with rfl | hbatch
    · rcases List.mem_pair.1 hevent with rfl | rfl
      · exact Finset.mem_coe.2 ha
      · exact Finset.mem_coe.2 hb
    · rw [List.mem_singleton.1 hbatch, Finset.mem_toList] at hevent
      exact Finset.mem_coe.2 hevent
  refine List.Sublist.trans ?_ (sublist_deliver hfits)
  have hkeeps := keeps_deliver hfits.of_append
  have hsorted : (deliver maxEvents [[a, b]]).Pairwise fun a b => position a ≤ position b := by
    have hfirst : Fits maxEvents events ([] ++ [[a, b]]) := hfits.of_append
    rw [show [[a, b]] = [] ++ [[a, b]] from rfl, deliver_append_eq_merged hfirst]
    exact pairwise_merged List.Pairwise.nil
  have hmem : ∀ event ∈ [a, b], event ∈ deliver maxEvents [[a, b]] := by
    intro event hevent
    obtain ⟨kept, hkept, hid⟩ := List.mem_map.1
      (hkeeps.all event ⟨_, List.mem_singleton_self _, hevent⟩)
    obtain ⟨batch, hbatch, hkept'⟩ := (hkeeps.best kept hkept).mem
    rw [List.mem_singleton.1 hbatch] at hkept'
    have heq : kept = event := by
      rcases List.mem_pair.1 hkept' with rfl | rfl <;>
        rcases List.mem_pair.1 hevent with rfl | rfl
      · rfl
      · exact absurd hid hne
      · exact absurd hid.symm hne
      · rfl
    exact heq ▸ hkept
  rcases Versions.pair_sublist (hmem a (by simp)) (hmem b (by simp))
    (fun h => hne (congrArg _ h)) with h | h
  · exact h.map TimelineEvent.eventId
  · have hle := List.pairwise_pair.1 (hsorted.sublist h)
    exact absurd hlt (not_lt.2 hle)

end Deliveries

/-- Every way of delivering some events ends in their timeline exactly when the versions of two
events never change sides. -/
theorem mergeConverges_iff (maxEvents : ℕ) (events : Finset TimelineEvent)
    (hdistinguished : Distinguished (events : Set TimelineEvent))
    (hcard : (events.image TimelineEvent.eventId).card ≤ maxEvents) :
    Converges maxEvents events ↔ NeverCross (events : Set TimelineEvent) := by
  constructor
  · rintro ⟨timeline, htimeline, hall⟩
    by_contra hcross
    simp only [neverCross_iff, Versions.NeverCross, not_forall] at hcross
    obtain ⟨a, ha, a', ha', b, hb, b', hb', hida, hidb, hne, hlt, hnot⟩ := hcross
    have hne' : b'.eventId ≠ a'.eventId := by
      rw [hida, hidb]
      exact hne.symm
    have hlt' : position b' < position a' :=
      (not_lt.1 hnot).lt_of_ne (hdistinguished.position_ne hb' ha' hne')
    have h := sublist_deliver_pair hcard ha hb hne hlt
    have h' := sublist_deliver_pair hcard hb' ha' hne' hlt'
    rw [hall _ (delivers_pair ha hb)] at h
    rw [hall _ (delivers_pair hb' ha'), hida, hidb] at h'
    exact Versions.not_pair_sublist htimeline.nodup h h'
  · intro hcross
    have hall : ∀ batches, Delivers batches (events : Set TimelineEvent) →
        Versions.Keeps TimelineEvent.eventId preference (events : Set TimelineEvent)
          (deliver maxEvents batches) ∧
        (deliver maxEvents batches).Pairwise fun a b => position a < position b := by
      intro batches hbatches
      have heq : delivered batches = events := Set.ext fun event => (hbatches event).symm
      have hfits : Fits maxEvents events batches := ⟨hcard, heq.subset⟩
      exact ⟨heq ▸ keeps_deliver hfits, pairwise_deliver hdistinguished hcross hfits⟩
    have hdelivers : Delivers [events.toList] (events : Set TimelineEvent) := fun event => by simp
    obtain ⟨hkeeps, hsorted⟩ := hall _ hdelivers
    refine ⟨_, isTimeline_of_keeps hdistinguished hkeeps hsorted, fun batches hbatches => ?_⟩
    obtain ⟨hkeeps', hsorted'⟩ := hall batches hbatches
    exact hkeeps'.eq_of_sorted hkeeps
      (fun a ha b hb => hdistinguished.eq (Finset.mem_coe.1 ha) (Finset.mem_coe.1 hb))
      hsorted' hsorted

/-! ## A message that goes on after another event -/

/-- An event of an assistant's turn. -/
def turnEvent (eventId : String) (at_ : ℚ) : TimelineEvent where
  eventId := eventId
  sessionId := "deck_app_brain"
  ts := at_
  seq := at_
  epoch := some 1
  source := "daemon"
  confidence := "high"
  type := "assistant.text"
  payload := []
  fields := []

/-- A message, another event, and the message again with more of its text. -/
def turn : List TimelineEvent := [turnEvent "text" 1, turnEvent "tool" 2, turnEvent "text" 3]

theorem nodup_turn : turn.Nodup := by
  refine List.Nodup.of_map TimelineEvent.ts ?_
  decide +kernel

/-- The events of the turn as a set. -/
def turnEvents : Finset TimelineEvent := ⟨turn, nodup_turn⟩

theorem distinguished_turn : Distinguished (turnEvents : Set TimelineEvent) := by
  have hmem : ∀ event, event ∈ (turnEvents : Set TimelineEvent) ↔ event ∈ turn := fun _ => Iff.rfl
  constructor
  · intro a ha b hb _ _ _ _ _ hts
    rw [hmem] at ha hb
    exact List.inj_on_of_nodup_map (by decide +kernel) ha hb hts
  · intro a ha b hb hid heq
    rw [hmem] at ha hb
    have hts : a.ts = b.ts := congrArg Prod.fst heq
    refine hid (congrArg TimelineEvent.eventId ?_)
    exact List.inj_on_of_nodup_map (by decide +kernel) ha hb hts

theorem mergeConverges_iff_turn :
    Converges 300 turnEvents ↔ NeverCross (turnEvents : Set TimelineEvent) :=
  mergeConverges_iff 300 turnEvents distinguished_turn (by decide +kernel)

/-- The other event stays behind the message when they were in the list first, and comes before it
when it was delivered with the rest of the message. -/
theorem not_mergeConverges : ¬∀ (maxEvents : ℕ) (events : Finset TimelineEvent),
    Distinguished (events : Set TimelineEvent) →
    (events.image TimelineEvent.eventId).card ≤ maxEvents → Converges maxEvents events := by
  intro h
  have hcard : (turnEvents.image TimelineEvent.eventId).card ≤ 300 := by decide +kernel
  obtain ⟨timeline, htimeline, hall⟩ := h 300 turnEvents distinguished_turn hcard
  have hmem : ∀ event ∈ turn, event ∈ turnEvents := fun _ => id
  have hfirst : turnEvent "text" 1 ∈ turnEvents := hmem _ (by simp [turn])
  have htool : turnEvent "tool" 2 ∈ turnEvents := hmem _ (by simp [turn])
  have hlast : turnEvent "text" 3 ∈ turnEvents := hmem _ (by simp [turn])
  have hafter := sublist_deliver_pair hcard hfirst htool (by decide) (by decide +kernel)
  have hbefore := sublist_deliver_pair hcard htool hlast (by decide) (by decide +kernel)
  rw [hall _ (delivers_pair hfirst htool)] at hafter
  rw [hall _ (delivers_pair htool hlast)] at hbefore
  exact Versions.not_pair_sublist htimeline.nodup hafter hbefore

end Imcodes.Timeline
