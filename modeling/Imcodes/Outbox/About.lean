import Imcodes.Outbox.Faithful

/-!
# What an outbox is about

* `AckOutbox.About` — every entry that the outbox has, in memory or in its file, is about a command
  of which something holds.
* `about_step` — an outbox is about no command that was not enqueued.
* `AckOutbox.About.flushed` — what a flush sends is about such a command.
-/

namespace Imcodes.Outbox

open Machine

namespace AckOutbox

variable {o : AckOutbox} {P Q : String → Prop}

structure About (P : String → Prop) (o : AckOutbox) : Prop where
  heap : ∀ ref < o.nextRef, P (o.heap ref).commandId
  entries : ∀ ref ∈ o.entries.values, ref < o.nextRef
  queue : ∀ ref, .entry ref ∈ o.queue → ref < o.nextRef
  writing : ∀ entry, o.writing = some (.entry entry) → P entry.commandId
  file : ∀ entry, .entry entry ∈ o.file → P entry.commandId
  flushes : ∀ flush ∈ o.flushes, ∀ ref ∈ flush.remaining, ref < o.nextRef

/-- The command of which a round of a flush sends the acknowledgement. -/
def flushed (o : AckOutbox) (outcome : SendOutcome) : List Ref → Option String
  | [] => none
  | ref :: _ =>
    if (o.heap ref).isCapped then none
    else if outcome = .sent then some (o.heap ref).commandId
    else none

theorem About.imp (h : o.About P) (hPQ : ∀ id, P id → Q id) : o.About Q :=
  { h with
    heap := fun ref href => hPQ _ (h.heap ref href)
    writing := fun entry hentry => hPQ _ (h.writing entry hentry)
    file := fun entry hentry => hPQ _ (h.file entry hentry) }

theorem About.flushed {outcome : SendOutcome} {remaining : List Ref} {id : String}
    (h : o.About P) (hremaining : ∀ ref ∈ remaining, ref < o.nextRef)
    (hid : o.flushed outcome remaining = some id) : P id := by
  cases remaining with
  | nil => cases hid
  | cons ref remaining =>
    rw [AckOutbox.flushed] at hid
    split at hid
    · cases hid
    · split at hid
      · exact Option.some.inj hid ▸ h.heap ref (hremaining ref List.mem_cons_self)
      · cases hid

/-! ## The operations -/

theorem About.appendRecord {record : LogRecord Ref String} (h : o.About P)
    (hrecord : ∀ ref, record = .entry ref → ref < o.nextRef) :
    (o.appendRecord record).2.About P :=
  { h with
    queue := fun ref href => by
      rcases List.mem_append.1 href with href | href
      · exact h.queue ref href
      · exact hrecord ref (List.mem_singleton.1 href).symm }

theorem About.enqueue {entry : AckOutboxInput} {attempts : Option ℕ} (h : o.About P)
    (hentry : P entry.commandId) : (o.enqueue entry attempts).About P := by
  refine About.appendRecord ?_ fun ref href => ?_
  · refine
      { heap := fun ref href => ?_
        entries := fun ref href => ?_
        queue := fun ref href => (h.queue ref href).trans (Nat.lt_succ_self _)
        writing := h.writing
        file := h.file
        flushes := fun flush hflush ref href =>
          (h.flushes flush hflush ref href).trans (Nat.lt_succ_self _) }
    · by_cases hnew : ref = o.nextRef
      · simpa [hnew, AckOutboxInput.full] using hentry
      · have hlt : ref < o.nextRef := Nat.lt_of_le_of_ne (Nat.le_of_lt_succ href) hnew
        simpa [Function.update_of_ne hnew] using h.heap ref hlt
    · obtain ⟨id, hid⟩ := OrderedMap.mem_values.1 href
      rw [OrderedMap.get?_set] at hid
      split at hid
      · exact Option.some.inj hid ▸ Nat.lt_succ_self _
      · exact (h.entries ref (OrderedMap.mem_values.2 ⟨id, hid⟩)).trans (Nat.lt_succ_self _)
  · cases href
    exact Nat.lt_succ_self _

theorem About.bury (h : o.About P) (id : String) : (o.bury id).2.About P := by
  have hdelete : About P { o with entries := o.entries.delete id } :=
    { h with entries := fun ref href => h.entries ref (OrderedMap.values_delete.subset href) }
  exact hdelete.appendRecord fun ref href => by cases href

theorem About.markAcked (h : o.About P) (id : String) : (o.markAcked id).2.About P := by
  rw [AckOutbox.markAcked]
  cases o.entries.get? id with
  | none => exact h
  | some ref => exact h.bury id

theorem About.countAttempt (h : o.About P) (ref : Ref) : (o.countAttempt ref).About P :=
  { h with
    heap := fun other hother => by
      by_cases heq : other = ref
      · simpa [AckOutbox.countAttempt, heq] using h.heap ref (heq ▸ hother)
      · simpa [AckOutbox.countAttempt, Function.update_of_ne heq] using h.heap other hother }

theorem nextRef_markAcked (o : AckOutbox) (id : String) :
    (o.markAcked id).2.nextRef = o.nextRef := by
  rw [AckOutbox.markAcked]
  cases o.entries.get? id with
  | none => rfl
  | some ref => rfl

theorem About.awaitFlush {remaining : List Ref} {p : ℕ × AckOutbox} (h : p.2.About P)
    (hremaining : ∀ ref ∈ remaining, ref < p.2.nextRef) : (awaitFlush remaining p).About P :=
  { h with
    flushes := fun flush hflush ref href => by
      rcases List.mem_append.1 hflush with hflush | hflush
      · exact h.flushes flush hflush ref href
      · obtain rfl := List.mem_singleton.1 hflush
        exact hremaining ref href }

theorem About.flushNext {outcome : SendOutcome} {remaining : List Ref} (h : o.About P)
    (hremaining : ∀ ref ∈ remaining, ref < o.nextRef) : (o.flushNext outcome remaining).About P := by
  cases remaining with
  | nil => exact h
  | cons ref remaining =>
    have hrest : ∀ other ∈ remaining, other < o.nextRef := fun other hother =>
      hremaining other (List.mem_cons_of_mem _ hother)
    have hcount := h.countAttempt ref
    unfold AckOutbox.flushNext
    dsimp only
    split
    · refine (h.markAcked _).awaitFlush ?_
      rwa [nextRef_markAcked]
    · cases outcome with
      | disconnected => exact h
      | sent =>
        refine (hcount.markAcked _).awaitFlush ?_
        rwa [nextRef_markAcked]
      | notSent | threw =>
        exact hcount.appendRecord fun other hother => by
          cases hother
          exact hremaining ref List.mem_cons_self

theorem About.ordered (h : o.About P) : ∀ ref ∈ o.ordered, ref < o.nextRef := fun ref href =>
  h.entries ref ((List.perm_insertionSort _ _).subset href)

theorem About.collectNext (h : o.About P) (ids : List String) : (o.collectNext ids).About P := by
  cases ids with
  | nil => exact h
  | cons id ids => exact { h.bury id with }

theorem About.startWriting (h : o.About P) : o.startWriting.About P := by
  rw [AckOutbox.startWriting]
  split
  · rename_i record queue hwriting hqueue
    refine
      { h with
        queue := fun ref href => h.queue ref (hqueue ▸ List.mem_cons_of_mem _ href)
        writing := fun entry hentry => ?_ }
    cases record with
    | entry ref =>
      cases hentry
      exact h.heap ref (h.queue ref (hqueue ▸ List.mem_cons_self))
    | tombstone id => cases hentry
  · exact h

theorem About.finishWriting (h : o.About P) : o.finishWriting.About P := by
  rw [AckOutbox.finishWriting]
  split
  · rename_i record hwriting
    refine
      { h with
        writing := fun entry hentry => by cases hentry
        file := fun entry hentry => ?_ }
    rcases List.mem_append.1 hentry with hentry | hentry
    · exact h.file entry hentry
    · exact h.writing entry (List.mem_singleton.1 hentry ▸ hwriting)
  · exact h

/-- What is loaded stands in a line. -/
theorem mem_lines_of_mem_loadFromDisk {now : ℤ} {lines : List (Option DiskRecord)}
    {p : String × AckOutboxEntry} (hp : p ∈ (loadFromDisk now lines).toList) :
    some (.entry p.2) ∈ lines := by
  induction lines using List.reverseRecOn with
  | nil => cases hp
  | append_singleton lines line ih =>
    rw [loadFromDisk, List.foldl_append, List.foldl_cons, List.foldl_nil, ← loadFromDisk] at hp
    have hold (hp : p ∈ (loadFromDisk now lines).toList) : some (.entry p.2) ∈ lines ++ [line] :=
      List.mem_append_left _ (ih hp)
    unfold readLine at hp
    split at hp
    · exact hold hp
    · split at hp
      · exact hold hp
      · split at hp
        · exact hold hp
        · rcases OrderedMap.mem_set.1 hp with rfl | ⟨hp, -⟩
          · exact List.mem_append_right _ (List.mem_singleton_self _)
          · exact hold hp
    · exact hold (OrderedMap.mem_delete.1 hp).1

theorem about_init {now : ℤ} {file : List DiskRecord}
    (h : ∀ entry, .entry entry ∈ file → P entry.commandId) :
    (AckOutbox.init now (file.map some)).About P := by
  have hvalues : ∀ entry ∈ (loadFromDisk now (file.map some)).values, P entry.commandId := by
    intro entry hentry
    obtain ⟨p, hp, rfl⟩ := List.mem_map.1 hentry
    exact h _ (by simpa using mem_lines_of_mem_loadFromDisk hp)
  refine
    { heap := fun ref href => ?_
      entries := fun ref href => ?_
      queue := fun ref href => by cases href
      writing := fun entry hentry => by cases hentry
      file := fun entry hentry => ?_
      flushes := fun flush hflush => by cases hflush }
  · have hlt : ref < (loadFromDisk now (file.map some)).values.length := href
    have hget : (AckOutbox.init now (file.map some)).heap ref =
        (loadFromDisk now (file.map some)).values[ref] := by
      simp [AckOutbox.init, hlt]
    exact hget ▸ hvalues _ (List.getElem_mem hlt)
  · obtain ⟨id, hid⟩ := OrderedMap.mem_values.1 href
    obtain ⟨v, hget⟩ := entries_init.1 hid
    have hlt := (List.getElem?_eq_some_iff.1 hget).1
    simpa [AckOutbox.init, OrderedMap.values] using hlt
  · obtain ⟨v, hv, heq⟩ := List.mem_map.1 hentry
    cases heq
    exact hvalues _ hv

end AckOutbox

/-- An outbox is about no command that was not enqueued. -/
theorem about_step {o : AckOutbox} {P : String → Prop} {e : Event} (h : o.About P)
    (henqueue : ∀ entry attempts, e = .enqueue entry attempts → P entry.commandId) :
    (step o e).About P := by
  cases e with
  | enqueue entry attempts => exact h.enqueue (henqueue entry attempts rfl)
  | markAcked id => exact h.markAcked id
  | flushOnReconnect outcome => exact h.flushNext h.ordered
  | resumeFlush i outcome =>
    rw [step, AckOutbox.resumeFlush]
    split
    · exact h
    · rename_i flush hflush
      have hmem : flush ∈ o.flushes := List.mem_of_getElem? (Option.mem_filter_iff.1 hflush).1
      have hrest : AckOutbox.About P { o with flushes := o.flushes.eraseIdx i } :=
        { h with flushes := fun f hf => h.flushes f (List.mem_of_mem_eraseIdx hf) }
      exact hrest.flushNext (h.flushes flush hmem)
  | gc now => exact h.collectNext _
  | resumeGc i =>
    rw [step, AckOutbox.resumeGc]
    split
    · exact h
    · rename_i gc hgc
      have hrest : AckOutbox.About P { o with collections := o.collections.eraseIdx i } := { h with }
      exact hrest.collectNext _
  | startWriting => exact h.startWriting
  | finishWriting => exact h.finishWriting
  | restart now => exact AckOutbox.about_init h.file

end Imcodes.Outbox
