import Mathlib.Algebra.Order.Ring.Cast
import Mathlib.Tactic.Linarith
import Imcodes.Timeline.Emitter

/-!
# What a replay of the timeline contains

A replay should be in order and have, of everything final that was emitted after the point, the
event or a version that is preferred to it.

* `Sound.step` — while a buffered event is repeated only by a version that is preferred to it, or
  when it is the newest one of the buffer, the buffer stays in order and has a version of
  everything that is not older than its first event.
* `replaysAll_of_along` — such runs lose nothing, from the buffer or with at most a thousand lines
  of the log after the point, all of them read whole.
* `not_replaysAll` — an event that is repeated by a lesser version comes out of order.
-/

namespace Imcodes.Timeline

open Machine LogFile

/-- An emitter and everything that it has broadcast. -/
structure Session where
  emitter : Emitter
  emitted : List TimelineEvent

namespace Session

/-- A session of which the log has these lines. -/
def start (sessionId : String) (epoch : ℚ) (lines : List Line) : Session where
  emitter := ⟨sessionId, epoch, 0, [], none, none, lines.flatMap Line.bytes⟩
  emitted := []

/-- A call of `emit`. -/
def step (world : World) (session : Session) (call : EmitCall) : Session :=
  match session.emitter.emit world call with
  | (emitter, none) => { session with emitter := emitter }
  | (emitter, some event) => ⟨emitter, session.emitted ++ [event]⟩

/-- A replay is in order and has, of every final event after the point, a version that is
at least as good, unless that version is not after the point. -/
structure ReplaysAll (world : World) (session : Session) (afterSeq : ℚ) : Prop where
  increasing : (session.emitter.replay world afterSeq).events.Pairwise fun a b => a.seq < b.seq
  complete : (session.emitter.replay world afterSeq).truncated = true ∨
    ∀ event ∈ session.emitted, isStreaming event = false → afterSeq < event.seq →
      ∃ version ∈ session.emitted, version.eventId = event.eventId ∧
        preferTimelineEvent event version = version ∧
        (version ∈ (session.emitter.replay world afterSeq).events ∨ version.seq ≤ afterSeq)

/-- Of what was broadcast each line in the log is parsed to the event again. -/
def ReadsBack (world : World) (session : Session) : Prop :=
  ∀ event ∈ session.emitted, world.parse (world.line event).text = some event

end Session

/-- Of a buffered event that is repeated, the new version is preferred, or the old one is the
newest event of the buffer. -/
def PutsInOrder (buffer : List TimelineEvent) (isStableUpdate : Bool) (event : TimelineEvent) :
    Prop :=
  isStableUpdate = true → ∀ existing ∈ buffer.find? (·.eventId = event.eventId),
    prefersIncoming existing event = true ∨ ∀ other ∈ buffer, other.seq ≤ existing.seq

instance (buffer : List TimelineEvent) (isStableUpdate : Bool) (event : TimelineEvent) :
    Decidable (PutsInOrder buffer isStableUpdate event) :=
  inferInstanceAs (Decidable (_ → ∀ existing ∈ _, _))

/-- The call puts its event in order. -/
def Emitter.PutsInOrder (world : World) (emitter : Emitter) (call : EmitCall) : Prop :=
  match emitter.accept world call with
  | (_, none) => True
  | (emitter, some payload) =>
      Timeline.PutsInOrder emitter.buffer call.opts.eventId.isSome
        (emitter.event world call (Emitter.markNoise world call.type payload))

instance (world : World) (emitter : Emitter) (call : EmitCall) :
    Decidable (emitter.PutsInOrder world call) := by
  unfold Emitter.PutsInOrder
  split
  · exact Decidable.isTrue trivial
  · infer_instance

/-- The lines of the log that a replay asks for. -/
def Emitter.asked (world : World) (emitter : Emitter) (afterSeq : ℚ) : List TimelineEvent :=
  (linesOf emitter.log).filterMap fun line => (emitter.tailOpts afterSeq).wanted (world.parse line)

/-- The buffer covers what is after the point, or the part of the log that is read does, and no
chunk in which it is read begins inside a character. -/
def Emitter.ReadsFar (world : World) (emitter : Emitter) (afterSeq : ℚ) : Prop :=
  emitter.buffered afterSeq = true ∨
    (emitter.asked world afterSeq).length ≤ 1000 ∧ Intact (Utf8.decode emitter.log) 1000

/-! ## The buffer -/

variable {buffer : List TimelineEvent} {isStableUpdate : Bool} {event existing : TimelineEvent}

/-- An event stands for another one: it is a version of it that is at least as good, and what
comes after it in the buffer is newer than both. -/
structure StandsFor (buffer : List TimelineEvent) (event version : TimelineEvent) : Prop where
  mem : version ∈ buffer
  eventId : version.eventId = event.eventId
  preferred : preference event ≤ preference version
  newer : ∀ other ∈ buffer, version.seq < other.seq → event.seq < other.seq

/-- What the buffer is after an event. -/
structure IsPushed (buffer : List TimelineEvent) (event : TimelineEvent)
    (after : List TimelineEvent) : Prop where
  sorted : after.Pairwise fun a b => a.seq < b.seq
  mem : ∀ other ∈ after, other ∈ buffer ∨ other = event
  pushed : ∃ version, StandsFor after event version
  kept : ∀ old ∈ buffer, ∃ version ∈ after, version.eventId = old.eventId ∧
    preference old ≤ preference version ∧ (version = old ∨ ∀ other ∈ after, other.seq ≤ version.seq)

theorem isPushed_append (hsorted : buffer.Pairwise fun a b => a.seq < b.seq)
    (hnew : ∀ other ∈ buffer, other.seq < event.seq) :
    IsPushed buffer event (buffer ++ [event]) := by
  have hlast : ∀ other ∈ buffer ++ [event], other.seq ≤ event.seq := by
    intro other hother
    rcases List.mem_append.1 hother with hother | hother
    · exact (hnew other hother).le
    · rw [List.mem_singleton.1 hother]
  refine ⟨?_, fun other hother => ?_, ⟨event, ?_, rfl, le_rfl, fun other hother h => ?_⟩,
    fun old hold => ⟨old, List.mem_append_left _ hold, rfl, le_rfl, Or.inl rfl⟩⟩
  · rw [List.pairwise_append]
    exact ⟨hsorted, List.pairwise_singleton _ _, fun a ha b hb => by
      rw [List.mem_singleton.1 hb]
      exact hnew a ha⟩
  · exact (List.mem_append.1 hother).imp_right List.mem_singleton.1
  · exact List.mem_append_right _ (List.mem_singleton_self _)
  · exact absurd h (not_lt.2 (hlast other hother))

theorem isPushed_replace {before after : List TimelineEvent} {version : TimelineEvent}
    (hbuffer : buffer = before ++ existing :: after)
    (hsorted : buffer.Pairwise fun a b => a.seq < b.seq)
    (hversion : version = event ∨ version = existing)
    (hid : existing.eventId = event.eventId) (hevent : preference event ≤ preference version)
    (hexisting : preference existing ≤ preference version)
    (hnew : ∀ other ∈ before ++ after, other.seq < version.seq) :
    IsPushed buffer event (before ++ after ++ [version]) := by
  have hid' : version.eventId = event.eventId := by
    rcases hversion with rfl | rfl
    · rfl
    · exact hid
  have hsub : (before ++ after).Sublist buffer := by
    rw [hbuffer]
    exact (List.Sublist.refl _).append (List.sublist_cons_self _ _)
  have hmem : existing ∈ buffer := by simp [hbuffer]
  have hpushed := isPushed_append (hsorted.sublist hsub) hnew
  have hlast : ∀ other ∈ before ++ after ++ [version], other.seq ≤ version.seq := by
    intro other hother
    rcases List.mem_append.1 hother with hother | hother
    · exact (hnew other hother).le
    · rw [List.mem_singleton.1 hother]
  have hself : version ∈ before ++ after ++ [version] :=
    List.mem_append_right _ (List.mem_singleton_self _)
  refine ⟨hpushed.sorted, fun other hother => ?_, ⟨version, hself, hid', hevent,
    fun other hother h => absurd h (not_lt.2 (hlast other hother))⟩, fun old hold => ?_⟩
  · rcases List.mem_append.1 hother with h | h
    · exact Or.inl (hsub.subset h)
    · rw [List.mem_singleton.1 h]
      rcases hversion with rfl | rfl
      · exact Or.inr rfl
      · exact Or.inl hmem
  · rw [hbuffer, List.mem_append, List.mem_cons] at hold
    rcases hold with hold | rfl | hold
    · exact ⟨old, List.mem_append_left _ (List.mem_append_left _ hold), rfl, le_rfl, Or.inl rfl⟩
    · exact ⟨version, hself, hid'.trans hid.symm, hexisting, Or.inr hlast⟩
    · exact ⟨old, List.mem_append_left _ (List.mem_append_right _ hold), rfl, le_rfl, Or.inl rfl⟩

/-- An event that is put in order. -/
theorem isPushed_pushed (hsorted : buffer.Pairwise fun a b => a.seq < b.seq)
    (hnew : ∀ other ∈ buffer, other.seq < event.seq)
    (horder : PutsInOrder buffer isStableUpdate event) :
    IsPushed buffer event (Emitter.pushed buffer isStableUpdate event) := by
  unfold Emitter.pushed
  split
  · rename_i existing hfind
    rcases hstable : isStableUpdate with _ | _
    · rw [hstable] at hfind
      cases hfind
    rw [hstable, if_pos rfl] at hfind
    obtain ⟨hid, before, after, hbuffer, hbefore⟩ := List.find?_eq_some_iff_append.1 hfind
    have hid : existing.eventId = event.eventId := of_decide_eq_true hid
    have herase : buffer.eraseP (·.eventId = event.eventId) = before ++ after := by
      have hbefore' : ∀ other ∈ before, ¬decide (other.eventId = event.eventId) = true :=
        fun other hother => by simpa using hbefore other hother
      rw [hbuffer, List.eraseP_append_right _ hbefore']
      simp [hid]
    have hlt : ∀ other ∈ before ++ after, other.seq < event.seq := by
      intro other hother
      refine hnew other ?_
      rw [hbuffer]
      exact (List.mem_append.1 hother).elim (List.mem_append_left _)
        fun h => List.mem_append_right _ (List.mem_cons_of_mem _ h)
    rw [herase, preferTimelineEvent]
    split
    · rename_i hprefers
      exact isPushed_replace hbuffer hsorted (Or.inl rfl) hid le_rfl
        (prefersIncoming_iff.1 hprefers) hlt
    · rename_i hprefers
      have hnewest := (horder hstable existing hfind).resolve_left hprefers
      have hrank := (not_le.1 fun h => hprefers (prefersIncoming_iff.2 h)).le
      refine isPushed_replace hbuffer hsorted (Or.inr rfl) hid hrank le_rfl fun other hother => ?_
      rw [hbuffer, List.pairwise_append] at hsorted
      rcases List.mem_append.1 hother with hother | hother
      · exact hsorted.2.2 other hother existing List.mem_cons_self
      · have hlater := (List.pairwise_cons.1 hsorted.2.1).1 other hother
        refine absurd (hnewest other ?_) (not_le.2 hlater)
        rw [hbuffer]
        exact List.mem_append_right _ (List.mem_cons_of_mem _ hother)
  · exact isPushed_append hsorted hnew

/-! ## Runs -/

/-- The lines after those of earlier daemons are what this one has made of the final events. -/
structure IsLog (emitted : List TimelineEvent) (persisted : List TimelineEvent) : Prop where
  sorted : persisted.Pairwise fun a b => a.seq < b.seq
  mem : ∀ event ∈ persisted, event ∈ emitted
  all : ∀ event ∈ emitted, isStreaming event = false → event ∈ persisted

/-- The numbers are in order, and the buffer has a version of everything that is not older than
its first event. -/
structure Sound (world : World) (earlier : List Line) (session : Session) : Prop where
  epoch : ∀ event ∈ session.emitted, event.epoch = some session.emitter.epoch
  seq : ∀ event ∈ session.emitted, ∃ n : ℕ, event.seq = n ∧ n ≤ session.emitter.seq
  mem : ∀ event ∈ session.emitter.buffer, event ∈ session.emitted
  sorted : session.emitter.buffer.Pairwise fun a b => a.seq < b.seq
  covered : ∀ event ∈ session.emitted,
    (∃ version, StandsFor session.emitter.buffer event version) ∨
      ∀ other ∈ session.emitter.buffer, event.seq < other.seq
  log : ∃ persisted, session.emitter.log =
      (earlier ++ persisted.map world.line).flatMap Line.bytes ∧
    IsLog session.emitted persisted

variable {world : World} {session : Session} {call : EmitCall} {emitter emitter' : Emitter}
  {earlier : List Line} {after : List TimelineEvent} {old : TimelineEvent}

/-- Cutting a buffer in order drops what is older than the rest. -/
theorem covered_cut (hsorted : after.Pairwise fun a b => a.seq < b.seq)
    (h : (∃ version, StandsFor after old version) ∨ ∀ other ∈ after, old.seq < other.seq) :
    (∃ version, StandsFor (Emitter.cut after) old version) ∨
      ∀ other ∈ Emitter.cut after, old.seq < other.seq := by
  have hsub : ∀ other ∈ Emitter.cut after, other ∈ after := fun other => List.mem_of_mem_drop
  rcases h with ⟨version, h⟩ | h
  · have hsplit := h.mem
    rw [← List.take_append_drop (after.length - maxBuffer) after, List.mem_append] at hsplit
    rcases hsplit with hdropped | hkept
    · refine Or.inr fun other hother => h.newer other (hsub other hother) ?_
      rw [← List.take_append_drop (after.length - maxBuffer) after, List.pairwise_append] at hsorted
      exact hsorted.2.2 version hdropped other hother
    · exact Or.inl ⟨version, hkept, h.eventId, h.preferred,
        fun other hother => h.newer other (hsub other hother)⟩
  · exact Or.inr fun other hother => h other (hsub other hother)

/-- What stood for an event before another one was pushed has something that stands for it. -/
theorem covered_pushed (hpushed : IsPushed buffer event after) (hnew : old.seq < event.seq)
    (h : (∃ version, StandsFor buffer old version) ∨ ∀ other ∈ buffer, old.seq < other.seq) :
    (∃ version, StandsFor after old version) ∨ ∀ other ∈ after, old.seq < other.seq := by
  rcases h with ⟨version, h⟩ | h
  · obtain ⟨version', hmem, hid, hrank, hplace⟩ := hpushed.kept version h.mem
    refine Or.inl ⟨version', hmem, hid.trans h.eventId, h.preferred.trans hrank,
      fun other hother hlt => ?_⟩
    rcases hplace with rfl | hlast
    · rcases hpushed.mem other hother with hother | rfl
      · exact h.newer other hother hlt
      · exact hnew
    · exact absurd hlt (not_lt.2 (hlast other hother))
  · refine Or.inr fun other hother => ?_
    rcases hpushed.mem other hother with hother | rfl
    · exact h other hother
    · exact hnew

/-- An event that is not final may be left out of the log. -/
theorem IsLog.append {emitted persisted : List TimelineEvent} (h : IsLog emitted persisted)
    (hstreaming : isStreaming event = true) :
    IsLog (emitted ++ [event]) persisted := by
  refine ⟨h.sorted, fun other hother => List.mem_append_left _ (h.mem other hother),
    fun other hother hfinal => ?_⟩
  rcases List.mem_append.1 hother with hother | hother
  · exact h.all other hother hfinal
  · rw [List.mem_singleton.1 hother, hstreaming] at hfinal
    cases hfinal

theorem IsLog.append_both {emitted persisted : List TimelineEvent} (h : IsLog emitted persisted)
    (hnew : ∀ other ∈ emitted, other.seq < event.seq) :
    IsLog (emitted ++ [event]) (persisted ++ [event]) := by
  refine ⟨?_, fun other hother => ?_, fun other hother hfinal => ?_⟩
  · rw [List.pairwise_append]
    refine ⟨h.sorted, List.pairwise_singleton _ _, fun a ha b hb => ?_⟩
    rw [List.mem_singleton.1 hb]
    exact hnew a (h.mem a ha)
  · exact List.mem_append.2 ((List.mem_append.1 hother).imp_left (h.mem other))
  · exact List.mem_append.2 ((List.mem_append.1 hother).imp_left fun h' => h.all other h' hfinal)

/-- The next event of an emitter, put in order. -/
theorem Sound.record (h : Sound world earlier session)
    (hepoch : event.epoch = some session.emitter.epoch)
    (hseq : event.seq = session.emitter.seq + 1)
    (horder : PutsInOrder session.emitter.buffer isStableUpdate event) :
    Sound world earlier
      ⟨session.emitter.record world isStableUpdate event, session.emitted ++ [event]⟩ := by
  have hnew : ∀ other ∈ session.emitted, other.seq < event.seq := by
    intro other hother
    obtain ⟨n, hn, hle⟩ := h.seq other hother
    rw [hn, hseq]
    exact_mod_cast Nat.lt_succ_of_le hle
  have hpushed := isPushed_pushed h.sorted (fun other hother => hnew other (h.mem other hother))
    horder
  obtain ⟨after, hafter⟩ : ∃ after,
      after = Emitter.pushed session.emitter.buffer isStableUpdate event := ⟨_, rfl⟩
  have hbuffer :
      (session.emitter.record world isStableUpdate event).buffer = Emitter.cut after := by
    rw [hafter, Emitter.record]
  rw [← hafter] at hpushed
  have hcut : (Emitter.cut after).Sublist after := List.drop_sublist _ _
  constructor
  · intro other hother
    rcases List.mem_append.1 hother with hother | hother
    · exact h.epoch other hother
    · rw [List.mem_singleton.1 hother]
      exact hepoch
  · intro other hother
    rcases List.mem_append.1 hother with hother | hother
    · obtain ⟨n, hn, hle⟩ := h.seq other hother
      exact ⟨n, hn, hle.trans (Nat.le_succ _)⟩
    · rw [List.mem_singleton.1 hother]
      exact ⟨session.emitter.seq + 1, by exact_mod_cast hseq, le_rfl⟩
  · intro other hother
    rw [hbuffer] at hother
    rcases hpushed.mem other (hcut.subset hother) with hother | rfl
    · exact List.mem_append_left _ (h.mem other hother)
    · exact List.mem_append_right _ (List.mem_singleton_self _)
  · rw [hbuffer]
    exact hpushed.sorted.sublist hcut
  · intro other hother
    rw [hbuffer]
    refine covered_cut hpushed.sorted ?_
    rcases List.mem_append.1 hother with hother | hother
    · exact covered_pushed hpushed (hnew other hother) (h.covered other hother)
    · rw [List.mem_singleton.1 hother]
      exact Or.inl hpushed.pushed
  · obtain ⟨persisted, hlines, hlog⟩ := h.log
    dsimp only [Emitter.record]
    split
    · rename_i hdelta
      exact ⟨persisted, hlines, hlog.append (Bool.and_eq_true_iff.1 hdelta).2⟩
    · refine ⟨persisted ++ [event], ?_, hlog.append_both hnew⟩
      have hbytes : Line.bytes (world.line event) = [world.line event].flatMap Line.bytes :=
        (List.flatMap_singleton _ _).symm
      rw [hlines, List.map_append, List.map_singleton, ← List.append_assoc, hbytes,
        ← List.flatMap_append]

/-- Only what `emit` remembers of states and prompts changes before an event is numbered. -/
theorem accept_eq {payload : Option Fields} (h : emitter.accept world call = (emitter', payload)) :
    ∃ state prompt, emitter' =
      { emitter with lastSessionState := state, recentUserMsg := prompt } := by
  unfold Emitter.accept at h
  dsimp only at h
  split at h
  · split at h
    · obtain ⟨rfl, -⟩ := Prod.mk.inj h
      exact ⟨_, _, rfl⟩
    · obtain ⟨rfl, -⟩ := Prod.mk.inj h
      exact ⟨_, _, rfl⟩
  · split at h
    · split at h
      · obtain ⟨rfl, -⟩ := Prod.mk.inj h
        exact ⟨_, _, rfl⟩
      · split at h
        · obtain ⟨rfl, -⟩ := Prod.mk.inj h
          exact ⟨_, _, rfl⟩
        · obtain ⟨rfl, -⟩ := Prod.mk.inj h
          exact ⟨_, _, rfl⟩
    · obtain ⟨rfl, -⟩ := Prod.mk.inj h
      exact ⟨_, _, rfl⟩

theorem Sound.step (h : Sound world earlier session)
    (horder : session.emitter.PutsInOrder world call) :
    Sound world earlier (session.step world call) := by
  unfold Emitter.PutsInOrder at horder
  unfold Session.step Emitter.emit
  rcases haccept : session.emitter.accept world call with ⟨emitter, _ | payload⟩
  · obtain ⟨state, prompt, rfl⟩ := accept_eq haccept
    exact ⟨h.epoch, h.seq, h.mem, h.sorted, h.covered, h.log⟩
  · rw [haccept] at horder
    obtain ⟨state, prompt, rfl⟩ := accept_eq haccept
    have hsame : Sound world earlier ⟨{ session.emitter with
        lastSessionState := state, recentUserMsg := prompt }, session.emitted⟩ :=
      ⟨h.epoch, h.seq, h.mem, h.sorted, h.covered, h.log⟩
    exact hsame.record rfl rfl horder

theorem sound_start {sessionId : String} {epoch : ℚ} :
    Sound world earlier (Session.start sessionId epoch earlier) :=
  ⟨nofun, nofun, nofun, List.Pairwise.nil, nofun, [],
    congrArg (List.flatMap Line.bytes) (List.append_nil earlier).symm,
    List.Pairwise.nil, nofun, nofun⟩

/-! ## Replays -/

/-- Elements that count only at the front of a list are all among its first ones. -/
theorem filterMap_take {β γ : Type*} {f : β → Option γ} {l : List β} {n : ℕ}
    (h : l.Pairwise fun a b => (f b).isSome → (f a).isSome) (hn : (l.filterMap f).length ≤ n) :
    (l.take n).filterMap f = l.filterMap f := by
  induction l generalizing n with
  | nil => rw [List.take_nil]
  | cons a l ih =>
    obtain ⟨ha, hl⟩ := List.pairwise_cons.1 h
    cases hfa : f a with
    | none =>
      have hnone : ∀ b ∈ l, f b = none := by
        intro b hb
        cases hfb : f b with
        | none => rfl
        | some c =>
          have hsome := ha b hb (by rw [hfb]; rfl)
          rw [hfa] at hsome
          cases hsome
      have hall : ∀ b ∈ a :: l, f b = none := fun b hb =>
        (List.mem_cons.1 hb).elim (fun heq => heq ▸ hfa) (hnone b)
      rw [List.filterMap_eq_nil_iff.2 hall,
        List.filterMap_eq_nil_iff.2 fun b hb => hall b (List.mem_of_mem_take hb)]
    | some c =>
      rw [List.filterMap_cons_some hfa] at hn ⊢
      obtain _ | n := n
      · cases hn
      · rw [List.take_succ_cons, List.filterMap_cons_some hfa,
          ih hl (Nat.le_of_succ_le_succ hn)]

variable {afterSeq epoch : ℚ} {version : TimelineEvent} {persisted : List TimelineEvent}

theorem wanted_eq_some {line : Option TimelineEvent} :
    (emitter.tailOpts afterSeq).wanted line = some version ↔
      line = some version ∧ version.epoch = some emitter.epoch ∧ afterSeq < version.seq := by
  cases line with
  | none => simp [ReadOpts.wanted]
  | some event =>
    simp only [ReadOpts.wanted, Emitter.tailOpts, Option.bind_some, Option.any_some,
      Option.any_none, decide_eq_true_eq, Bool.false_eq_true, if_false, Option.some.injEq]
    constructor
    · intro h
      split at h
      · cases h
      · split at h
        · cases h
        · rename_i hepoch hseq
          obtain rfl := Option.some.inj h
          exact ⟨rfl, not_not.1 hepoch, not_le.1 hseq⟩
    · rintro ⟨rfl, hepoch, hseq⟩
      rw [if_neg (not_not.2 hepoch), if_neg (not_le.2 hseq)]

/-- What is read of the log, when it is read far enough. -/
structure IsTail (afterSeq : ℚ) (emitted fileEvents : List TimelineEvent) : Prop where
  sorted : fileEvents.Pairwise fun a b => a.seq < b.seq
  mem : ∀ event ∈ fileEvents, event ∈ emitted
  all : ∀ event ∈ emitted, isStreaming event = false → afterSeq < event.seq → event ∈ fileEvents

/-- What the lines of the log are parsed to. -/
theorem Sound.parsed (hreads : session.ReadsBack world)
    (hlog : session.emitter.log = (earlier ++ persisted.map world.line).flatMap Line.bytes)
    (hmem : ∀ event ∈ persisted, event ∈ session.emitted) :
    (linesOf session.emitter.log).map world.parse =
      earlier.map (fun line => world.parse line.text) ++ persisted.map some := by
  rw [hlog, (isLines_flatMap _).2, List.map_append, List.map_append, List.map_map, List.map_map,
    List.map_map]
  exact congrArg _ (List.map_congr_left fun event hevent => hreads event (hmem event hevent))

/-- What is wanted of the end of a log, when its lines are read as they are. -/
theorem readLog_tailOpts (hlines : IsLines emitter.log)
    (hintact : Intact (Utf8.decode emitter.log) 1000) :
    world.readLog emitter.log (emitter.tailOpts afterSeq) =
      ((((linesOf emitter.log).map world.parse).reverse.take 1000).filterMap
        (emitter.tailOpts afterSeq).wanted).reverse := by
  have hlimit : (emitter.tailOpts afterSeq).limit = none := rfl
  have hmax : max (200 * 3) 1000 = 1000 := by decide
  simp only [World.readLog, hlimit, Option.getD_none, hmax]
  rw [hlines.readTailLines_eq hintact, ← List.map_reverse, ← List.map_take, List.filterMap_map]
  rfl

/-- Nothing of an earlier daemon is wanted. -/
theorem wanted_earlier (hearlier : ∀ line ∈ earlier, ∀ event,
      world.parse line.text = some event → event.epoch ≠ some emitter.epoch) :
    ∀ parsed ∈ earlier.map fun line => world.parse line.text,
      (emitter.tailOpts afterSeq).wanted parsed = none := by
  intro parsed hparsed
  obtain ⟨line, hline, rfl⟩ := List.mem_map.1 hparsed
  cases hw : (emitter.tailOpts afterSeq).wanted (world.parse line.text) with
  | none => rfl
  | some version =>
    obtain ⟨hparse, hversion, -⟩ := wanted_eq_some.1 hw
    exact absurd hversion (hearlier line hline version hparse)

/-- Of this daemon's own events those after the point are wanted. -/
theorem mem_wanted (hepoch : ∀ event ∈ persisted, event.epoch = some emitter.epoch) :
    event ∈ persisted.filterMap ((emitter.tailOpts afterSeq).wanted ∘ some) ↔
      event ∈ persisted ∧ afterSeq < event.seq := by
  rw [List.mem_filterMap]
  constructor
  · rintro ⟨other, hother, hw⟩
    obtain ⟨heq, -, hafter⟩ := wanted_eq_some.1 hw
    obtain rfl := Option.some.inj heq
    exact ⟨hother, hafter⟩
  · rintro ⟨hevent, hafter⟩
    exact ⟨event, hevent, wanted_eq_some.2 ⟨rfl, hepoch event hevent, hafter⟩⟩

/-- What is wanted is at the end of the log. -/
theorem pairwise_wanted {skipped : List (Option TimelineEvent)}
    (hskipped : ∀ parsed ∈ skipped, (emitter.tailOpts afterSeq).wanted parsed = none)
    (hepoch : ∀ event ∈ persisted, event.epoch = some emitter.epoch)
    (hsorted : persisted.Pairwise fun a b => a.seq < b.seq) :
    (skipped ++ persisted.map some).reverse.Pairwise fun a b =>
      ((emitter.tailOpts afterSeq).wanted b).isSome →
        ((emitter.tailOpts afterSeq).wanted a).isSome := by
  rw [List.pairwise_reverse, List.pairwise_append]
  refine ⟨?_, ?_, ?_⟩
  · refine List.pairwise_of_forall_mem_list fun a ha b _ hsome => ?_
    rw [hskipped a ha] at hsome
    cases hsome
  · rw [List.pairwise_map]
    refine hsorted.imp_of_mem fun {a b} _ hb hlt hsome => ?_
    obtain ⟨version, hversion⟩ := Option.isSome_iff_exists.1 hsome
    obtain ⟨heq, -, hafter⟩ := wanted_eq_some.1 hversion
    obtain rfl := Option.some.inj heq
    exact Option.isSome_iff_exists.2 ⟨b, wanted_eq_some.2 ⟨rfl, hepoch b hb, hafter.trans hlt⟩⟩
  · intro a ha b _ hsome
    rw [hskipped a ha] at hsome
    cases hsome

theorem Sound.isTail (h : Sound world earlier session) (hreads : session.ReadsBack world)
    (hearlier : ∀ line ∈ earlier, ∀ event, world.parse line.text = some event →
      event.epoch ≠ some session.emitter.epoch)
    (hfar : (session.emitter.asked world afterSeq).length ≤ 1000)
    (hintact : Intact (Utf8.decode session.emitter.log) 1000) :
    IsTail afterSeq session.emitted
      (world.readLog session.emitter.log (session.emitter.tailOpts afterSeq)) := by
  obtain ⟨persisted, hlog, hpersisted⟩ := h.log
  have hepoch : ∀ event ∈ persisted, event.epoch = some session.emitter.epoch :=
    fun event hevent => h.epoch event (hpersisted.mem event hevent)
  have hskipped : ∀ parsed ∈ earlier.map fun line => world.parse line.text,
      (session.emitter.tailOpts afterSeq).wanted parsed = none := wanted_earlier hearlier
  have hparsed := Sound.parsed hreads hlog hpersisted.mem
  have hisLines : IsLines session.emitter.log := by
    rw [hlog]
    exact (isLines_flatMap _).1
  have hread : world.readLog session.emitter.log (session.emitter.tailOpts afterSeq) =
      persisted.filterMap ((session.emitter.tailOpts afterSeq).wanted ∘ some) := by
    have hshort : ((earlier.map (fun line => world.parse line.text) ++
        persisted.map some).reverse.filterMap
          (session.emitter.tailOpts afterSeq).wanted).length ≤ 1000 := by
      rw [List.filterMap_reverse, List.length_reverse, ← hparsed, List.filterMap_map]
      exact hfar
    rw [readLog_tailOpts hisLines hintact, hparsed,
      filterMap_take (pairwise_wanted hskipped hepoch hpersisted.sorted) hshort,
      List.filterMap_reverse, List.reverse_reverse, List.filterMap_append,
      List.filterMap_eq_nil_iff.2 hskipped, List.nil_append, List.filterMap_map]
  rw [hread]
  refine ⟨?_, fun event hevent => hpersisted.mem event ((mem_wanted hepoch).1 hevent).1,
    fun event hevent hfinal hafter =>
      (mem_wanted hepoch).2 ⟨hpersisted.all event hevent hfinal, hafter⟩⟩
  refine List.Pairwise.filterMap _ (fun a b hlt a' ha' b' hb' => ?_) hpersisted.sorted
  obtain rfl := Option.some.inj (wanted_eq_some.1 ha').1
  obtain rfl := Option.some.inj (wanted_eq_some.1 hb').1
  exact hlt

theorem sublist_unseen {seen : List (Option ℚ × ℚ)} :
    (unseen afterSeq seen buffer).Sublist buffer := by
  induction buffer generalizing seen with
  | nil => exact List.Sublist.refl _
  | cons event buffer ih =>
    rw [unseen]
    split
    · exact ih.cons event
    · split
      · exact ih.cons event
      · exact ih.cons_cons event

theorem not_mem_of_unseen {seen : List (Option ℚ × ℚ)} (h : event ∈ unseen afterSeq seen buffer) :
    (event.epoch, event.seq) ∉ seen := by
  induction buffer generalizing seen with
  | nil => cases h
  | cons first buffer ih =>
    rw [unseen] at h
    split at h
    · exact ih h
    · split at h
      · exact ih h
      · rename_i hfirst
        rcases List.mem_cons.1 h with rfl | h
        · exact hfirst
        · exact fun hmem => ih h (List.mem_cons_of_mem _ hmem)

/-- The buffer alone, when it covers what is after the point. -/
theorem Sound.replaysAll_of_buffered (h : Sound world earlier session)
    (hbuffered : session.emitter.buffered afterSeq = true) : session.ReplaysAll world afterSeq := by
  have hreplay : session.emitter.replay world afterSeq =
      ⟨session.emitter.buffer.filter (·.seq > afterSeq), false, .ringBuffer⟩ := by
    rw [Emitter.replay, if_pos hbuffered]
  constructor
  · rw [hreplay]
    exact h.sorted.filter _
  · refine Or.inr fun event hevent _ hafter => ?_
    rw [hreplay]
    obtain ⟨first, hfirst, hcovers⟩ := (Option.any_eq_true _ _).1 hbuffered
    have hfirst : first ∈ session.emitter.buffer := List.mem_of_head? hfirst
    have hcovers : first.seq ≤ afterSeq + 1 := of_decide_eq_true hcovers
    rcases h.covered event hevent with ⟨version, hversion⟩ | holder
    · refine ⟨version, h.mem version hversion.mem, hversion.eventId, ?_, ?_⟩
      · rw [preferTimelineEvent, if_pos (prefersIncoming_iff.2 hversion.preferred)]
      · rw [List.mem_filter, decide_eq_true_eq]
        exact (lt_or_ge afterSeq version.seq).imp (fun hlt => ⟨hversion.mem, hlt⟩) id
    · -- numbers are whole, so nothing is between the point and the first event
      obtain ⟨n, hn, -⟩ := h.seq event hevent
      obtain ⟨m, hm, -⟩ := h.seq first (h.mem first hfirst)
      have hlt := holder first hfirst
      rw [hn, hm, Nat.cast_lt] at hlt
      have hle : ((n + 1 : ℕ) : ℚ) ≤ m := Nat.cast_le.2 hlt
      rw [hn] at hafter
      rw [hm] at hcovers
      push_cast at hle
      linarith

/-- What is taken from the buffer besides the log has other numbers. -/
theorem Sound.nodup_seq {fileEvents rest : List TimelineEvent} (h : Sound world earlier session)
    (htail : IsTail afterSeq session.emitted fileEvents)
    (hrest : rest = unseen afterSeq (fileEvents.map fun event => (event.epoch, event.seq))
      session.emitter.buffer) :
    ((fileEvents ++ rest).map TimelineEvent.seq).Nodup := by
  have hsub : rest.Sublist session.emitter.buffer := hrest ▸ sublist_unseen
  have hstrict : ∀ l : List TimelineEvent, l.Pairwise (fun a b => a.seq < b.seq) →
      (l.map TimelineEvent.seq).Nodup := fun l hl =>
    List.pairwise_map.2 (hl.imp fun {a b} hlt => hlt.ne)
  rw [List.map_append, List.nodup_append]
  refine ⟨hstrict _ htail.sorted, hstrict _ (h.sorted.sublist hsub), ?_⟩
  intro x hx y hy hxy
  obtain ⟨a, ha, rfl⟩ := List.mem_map.1 hx
  obtain ⟨b, hb, rfl⟩ := List.mem_map.1 hy
  refine not_mem_of_unseen (hrest ▸ hb) (List.mem_map.2 ⟨a, ha, ?_⟩)
  rw [h.epoch a (htail.mem a ha), h.epoch b (h.mem b (hsub.subset hb)), hxy]

/-- Events of different numbers are in order when they are sorted. -/
theorem pairwise_sorted {events : List TimelineEvent}
    (h : (events.map TimelineEvent.seq).Nodup) :
    (events.insertionSort fun a b => a.seq ≤ b.seq).Pairwise fun a b => a.seq < b.seq := by
  have htotal : Std.Total fun a b : TimelineEvent => a.seq ≤ b.seq :=
    ⟨fun a b => le_total a.seq b.seq⟩
  have htrans : IsTrans TimelineEvent fun a b => a.seq ≤ b.seq := ⟨fun _ _ _ => le_trans⟩
  have hperm := List.perm_insertionSort (fun a b : TimelineEvent => a.seq ≤ b.seq) events
  have hne := List.pairwise_map.1 ((hperm.map TimelineEvent.seq).nodup_iff.2 h)
  exact ((List.pairwise_insertionSort (fun a b : TimelineEvent => a.seq ≤ b.seq) events).and
    hne).imp fun {a b} hab => hab.1.lt_of_ne hab.2

/-- An answer from the log is in order, and has what was read. -/
theorem Sound.replay_tail (h : Sound world earlier session)
    (hbuffered : ¬session.emitter.buffered afterSeq = true)
    (htail : IsTail afterSeq session.emitted
      (world.readLog session.emitter.log (session.emitter.tailOpts afterSeq))) :
    ((session.emitter.replay world afterSeq).events.Pairwise fun a b => a.seq < b.seq) ∧
      ∀ event ∈ world.readLog session.emitter.log (session.emitter.tailOpts afterSeq),
        event ∈ (session.emitter.replay world afterSeq).events := by
  rw [Emitter.replay, if_neg hbuffered]
  dsimp only
  split
  · exact ⟨htail.sorted, fun _ => id⟩
  · exact ⟨pairwise_sorted (h.nodup_seq htail rfl), fun event hevent =>
      (List.perm_insertionSort _ _).mem_iff.2 (List.mem_append_left _ hevent)⟩

/-- The end of the log and the buffer, when the log is read far enough. -/
theorem Sound.replaysAll_of_tail (h : Sound world earlier session)
    (hbuffered : ¬session.emitter.buffered afterSeq = true)
    (htail : IsTail afterSeq session.emitted
      (world.readLog session.emitter.log (session.emitter.tailOpts afterSeq))) :
    session.ReplaysAll world afterSeq := by
  obtain ⟨hsorted, hread⟩ := h.replay_tail hbuffered htail
  refine ⟨hsorted, Or.inr fun event hevent hfinal hafter => ⟨event, hevent, rfl, ?_, Or.inl ?_⟩⟩
  · rw [preferTimelineEvent, if_pos (prefersIncoming_iff.2 le_rfl)]
  · exact hread event (htail.all event hevent hfinal hafter)

theorem epoch_step : (session.step world call).emitter.epoch = session.emitter.epoch := by
  unfold Session.step Emitter.emit
  rcases haccept : session.emitter.accept world call with ⟨emitter, _ | payload⟩
  · obtain ⟨state, prompt, rfl⟩ := accept_eq haccept
    rfl
  · obtain ⟨state, prompt, rfl⟩ := accept_eq haccept
    rfl

/-- **A replay loses nothing** after a run in which every repeated event is put in order, when the
buffer or the part of the log that is read, read whole, goes back to the point. -/
theorem replaysAll_of_along (world : World) (sessionId : String) (epoch : ℚ) (earlier : List Line)
    (hearlier : ∀ line ∈ earlier, ∀ event, world.parse line.text = some event →
      event.epoch ≠ some epoch) (calls : List EmitCall)
    (hreads : (run (Session.step world) calls
      (Session.start sessionId epoch earlier)).ReadsBack world)
    (horder : Along (Session.step world)
      (fun session call => session.emitter.PutsInOrder world call) calls
      (Session.start sessionId epoch earlier)) (afterSeq : ℚ)
    (hfar : (run (Session.step world) calls
      (Session.start sessionId epoch earlier)).emitter.ReadsFar world afterSeq) :
    (run (Session.step world) calls
      (Session.start sessionId epoch earlier)).ReplaysAll world afterSeq := by
  obtain ⟨hsound, hepoch⟩ := run_invariant
    (fun session => Sound world earlier session ∧ session.emitter.epoch = epoch)
    (fun session call h horder => ⟨h.1.step horder, epoch_step.trans h.2⟩)
    ⟨sound_start, rfl⟩ horder
  by_cases hbuffered : (run (Session.step world) calls
      (Session.start sessionId epoch earlier)).emitter.buffered afterSeq = true
  · exact hsound.replaysAll_of_buffered hbuffered
  · obtain ⟨hfew, hintact⟩ := hfar.resolve_left hbuffered
    refine hsound.replaysAll_of_tail hbuffered (hsound.isTail hreads ?_ hfew hintact)
    rw [hepoch]
    exact hearlier

/-! ## A final event that is repeated by a part of it -/

/-- A reply with a stable id. -/
def reply (eventId : String) (payload : Fields) : EmitCall where
  type := "assistant.text"
  payload := payload
  opts := { eventId := some eventId }
  now := (1, 1)

/-- The event of a reply. -/
def replyEvent (eventId : String) (seq : ℚ) (payload : Fields) : TimelineEvent :=
  ⟨eventId, "deck_app_brain", 1, seq, some 1, "daemon", "high", "assistant.text", payload, []⟩

/-- Three replies, and a delta of the second one. -/
def replies : List TimelineEvent :=
  [replyEvent "first" 1 [], replyEvent "reply" 2 [], replyEvent "tool" 3 [],
    replyEvent "reply" 4 [("streaming", .bool true)]]

/-- Nothing counts as noise, and the lines of the replies are parsed. -/
def quietWorld : World where
  text _ := ""
  isMemoryNoiseTurn _ := false
  digest _ _ _ _ := ""
  numbers := Json.wholeNumbers
  parse line := replies.find? fun event => Json.stringify Json.wholeNumbers event.toJson = line

/-- A delta of a reply comes after the reply and another event. -/
def lateDelta : List EmitCall :=
  [reply "first" [], reply "reply" [], reply "tool" [], reply "reply" [("streaming", .bool true)]]

theorem find?_key {κ : Type} [DecidableEq κ] {key : TimelineEvent → κ}
    {events : List TimelineEvent} (hnodup : (events.map key).Nodup) (hevent : event ∈ events) :
    (events.find? fun other => key other = key event) = some event := by
  cases hfind : events.find? fun other => key other = key event with
  | none => simpa using List.find?_eq_none.1 hfind event hevent
  | some found =>
    have hkey : key found = key event := by simpa using List.find?_some hfind
    rw [List.inj_on_of_nodup_map hnodup (List.mem_of_find?_eq_some hfind) hevent hkey]

theorem parse_line (hevent : event ∈ replies) :
    quietWorld.parse (quietWorld.line event).text = some event := by
  have hnodup : (replies.map fun other => (quietWorld.line other).text).Nodup := by
    decide +kernel
  exact find?_key hnodup hevent

theorem readsBack_of_replies {count : ℕ} (h : session.emitted = replies.take count) :
    session.ReadsBack quietWorld := by
  intro event hevent
  rw [h] at hevent
  exact parse_line (List.mem_of_mem_take hevent)

theorem emitted_lateDelta : (run (Session.step quietWorld) lateDelta
    (Session.start "deck_app_brain" 1 [])).emitted = replies.take 4 := by
  with_unfolding_all rfl

theorem emitted_take_lateDelta : (run (Session.step quietWorld) (lateDelta.take 3)
    (Session.start "deck_app_brain" 1 [])).emitted = replies.take 3 := by
  with_unfolding_all rfl

theorem replaysAll_of_along_lateDelta :
    (run (Session.step quietWorld) (lateDelta.take 3)
      (Session.start "deck_app_brain" 1 [])).ReplaysAll quietWorld 0 :=
  replaysAll_of_along quietWorld "deck_app_brain" 1 [] nofun (lateDelta.take 3)
    (readsBack_of_replies emitted_take_lateDelta) (by decide +kernel) 0 (Or.inl (by decide +kernel))

/-- The reply is the second event and comes last. -/
theorem not_replaysAll : ¬∀ (world : World) (sessionId : String) (epoch : ℚ) (earlier : List Line),
    (∀ line ∈ earlier, ∀ event, world.parse line.text = some event → event.epoch ≠ some epoch) →
    ∀ calls : List EmitCall, (run (Session.step world) calls
      (Session.start sessionId epoch earlier)).ReadsBack world →
    ∀ afterSeq : ℚ, (run (Session.step world) calls
      (Session.start sessionId epoch earlier)).ReplaysAll world afterSeq := by
  intro h
  have hincreasing := (h quietWorld "deck_app_brain" 1 [] nofun lateDelta
    (readsBack_of_replies emitted_lateDelta) 0).increasing
  have hseqs := List.pairwise_map.2 hincreasing
  revert hseqs
  decide +kernel

end Imcodes.Timeline
