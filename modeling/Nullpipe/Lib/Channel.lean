import Mathlib.Data.List.Basic
import Mathlib.Tactic.Common

/-!
# Channels between tasks

Three kinds of channel, each written so that what went through it can still be
read off its state.

* `Mpsc`: a bounded queue with one receiver.  It keeps what was received next to
  what is still queued, so that "received is the front part of what was sent"
  holds by construction.
* a broadcast channel: an append-only log that every subscriber reads through a
  cursor of its own (`Broadcast.recv`); a subscriber further behind than the
  capacity is moved to the oldest retained value.
* `Socket`: one end of a byte stream, with what was read, what has arrived, and
  what was written and flushed.
-/

namespace Channel

variable {α : Type*}

/-! ## Bounded queues -/

/-- A bounded multi-producer queue.  `isOpen` says that the receiver is alive;
sends to a closed queue fail. -/
structure Mpsc (α : Type*) where
  received : List α
  queue : List α
  isOpen : Bool
  deriving DecidableEq

namespace Mpsc

/-- The empty queue with a live receiver. -/
def empty : Mpsc α := ⟨[], [], true⟩

/-- Everything ever accepted by the queue, in order. -/
def sent (q : Mpsc α) : List α := q.received ++ q.queue

/-- A queue with free capacity and a live receiver. -/
def HasRoom (cap : ℕ) (q : Mpsc α) : Prop := q.isOpen = true ∧ q.queue.length < cap

instance (cap : ℕ) (q : Mpsc α) : Decidable (q.HasRoom cap) :=
  inferInstanceAs (Decidable (_ ∧ _))

/-- Append a value, whatever the capacity. -/
def push (q : Mpsc α) (a : α) : Mpsc α := { q with queue := q.queue ++ [a] }

/-- The send that does not wait: the value is dropped when there is no room. -/
def trySend (cap : ℕ) (q : Mpsc α) (a : α) : Mpsc α :=
  if q.HasRoom cap then q.push a else q

/-- The send on a queue without a bound: it fails only when the receiver is gone. -/
def post (q : Mpsc α) (a : α) : Mpsc α := if q.isOpen then q.push a else q

/-- The receiver takes the first queued value. -/
def pop (q : Mpsc α) : Mpsc α :=
  { q with received := q.received ++ q.queue.take 1, queue := q.queue.drop 1 }

/-- The receiver is dropped. -/
def close (q : Mpsc α) : Mpsc α := { q with isOpen := false }

@[simp] theorem sent_empty : (empty : Mpsc α).sent = [] := rfl

@[simp] theorem sent_push (q : Mpsc α) (a : α) : (q.push a).sent = q.sent ++ [a] := by
  simp [sent, push]

@[simp] theorem received_push (q : Mpsc α) (a : α) : (q.push a).received = q.received := rfl

@[simp] theorem isOpen_push (q : Mpsc α) (a : α) : (q.push a).isOpen = q.isOpen := rfl

@[simp] theorem sent_pop (q : Mpsc α) : q.pop.sent = q.sent := by
  cases hqueue : q.queue <;> simp [sent, pop, hqueue]

@[simp] theorem isOpen_pop (q : Mpsc α) : q.pop.isOpen = q.isOpen := rfl

@[simp] theorem sent_close (q : Mpsc α) : q.close.sent = q.sent := rfl

@[simp] theorem received_close (q : Mpsc α) : q.close.received = q.received := rfl

theorem pop_of_queue {q : Mpsc α} {a : α} {rest : List α} (hqueue : q.queue = a :: rest) :
    q.pop = { q with received := q.received ++ [a], queue := rest } := by
  simp [pop, hqueue]

theorem trySend_of_hasRoom {cap : ℕ} {q : Mpsc α} (hroom : q.HasRoom cap) (a : α) :
    q.trySend cap a = q.push a := if_pos hroom

theorem trySend_of_not_hasRoom {cap : ℕ} {q : Mpsc α} (hroom : ¬ q.HasRoom cap) (a : α) :
    q.trySend cap a = q := if_neg hroom

/-- A send that does not wait either appends its value or changes nothing. -/
theorem trySend_cases (cap : ℕ) (q : Mpsc α) (a : α) :
    q.trySend cap a = q.push a ∨ q.trySend cap a = q := by
  by_cases hroom : q.HasRoom cap
  · exact .inl (trySend_of_hasRoom hroom a)
  · exact .inr (trySend_of_not_hasRoom hroom a)

@[simp] theorem received_trySend (cap : ℕ) (q : Mpsc α) (a : α) :
    (q.trySend cap a).received = q.received := by
  unfold trySend
  split <;> rfl

@[simp] theorem isOpen_trySend (cap : ℕ) (q : Mpsc α) (a : α) :
    (q.trySend cap a).isOpen = q.isOpen := by
  unfold trySend
  split <;> rfl

theorem received_prefix_sent (q : Mpsc α) : q.received <+: q.sent :=
  List.prefix_append _ _

end Mpsc

/-! ## Broadcast -/

namespace Broadcast

/-- What one receive of a subscriber returns. -/
inductive Recv (α : Type*)
  | value (a : α)
  | lagged (skipped : ℕ)
  | empty
  deriving DecidableEq

/-- One receive from a broadcast log by the subscriber at `cursor`: the outcome
and the new cursor.  Only the last `cap` values are retained. -/
def recv (cap : ℕ) (log : List α) (cursor : ℕ) : Recv α × ℕ :=
  if cursor + cap < log.length then
    (.lagged (log.length - cap - cursor), log.length - cap)
  else
    match log[cursor]? with
    | some a => (.value a, cursor + 1)
    | none => (.empty, cursor)

theorem recv_value {cap : ℕ} {log : List α} {cursor next : ℕ} {a : α}
    (h : recv cap log cursor = (.value a, next)) : log[cursor]? = some a ∧ next = cursor + 1 := by
  unfold recv at h
  split at h
  · simp at h
  · cases hget : log[cursor]? with
    | none => simp [hget] at h
    | some b =>
        simp only [hget, Prod.mk.injEq, Recv.value.injEq] at h
        exact ⟨by rw [h.1], h.2.symm⟩

/-- A subscriber that lags is moved forward. -/
theorem lt_of_lagged {cap : ℕ} {log : List α} {cursor next skipped : ℕ}
    (h : recv cap log cursor = (.lagged skipped, next)) :
    cursor < next ∧ next ≤ log.length := by
  unfold recv at h
  split at h
  · simp only [Prod.mk.injEq] at h
    omega
  · split at h <;> simp at h

theorem recv_of_getElem? {cap : ℕ} {log : List α} {cursor : ℕ} {a : α}
    (hget : log[cursor]? = some a) (hcap : log.length ≤ cursor + cap) :
    recv cap log cursor = (.value a, cursor + 1) := by
  simp [recv, hget, Nat.not_lt.mpr hcap]

end Broadcast

/-! ## Byte streams -/

/-- How the read side of a stream ended. -/
inductive ReadEnd
  | eof
  | error
  deriving DecidableEq

/-- One end of a byte stream.  `read` was handed to the reader, `inbox` has
arrived and waits to be read, `written` was accepted from the writer and its
first `flushed` bytes were flushed. -/
structure Socket where
  read : List UInt8
  inbox : List UInt8
  readEnd : Option ReadEnd
  written : List UInt8
  flushed : ℕ
  deriving DecidableEq

namespace Socket

/-- A stream nobody has used yet. -/
def fresh : Socket := ⟨[], [], none, [], 0⟩

/-- Every byte that has arrived, in order. -/
def arrived (k : Socket) : List UInt8 := k.read ++ k.inbox

/-- The transport delivers further bytes. -/
def arrive (k : Socket) (chunk : List UInt8) : Socket := { k with inbox := k.inbox ++ chunk }

/-- The transport reports the end of the stream or an error. -/
def finish (k : Socket) (e : ReadEnd) : Socket := { k with readEnd := some e }

/-- The reader takes a chunk off the front of the inbox. -/
def take (k : Socket) (chunk : List UInt8) : Socket :=
  { k with read := k.read ++ chunk, inbox := k.inbox.drop chunk.length }

/-- The stream accepts a chunk from the writer. -/
def write (k : Socket) (chunk : List UInt8) : Socket := { k with written := k.written ++ chunk }

/-- Everything written so far is pushed out. -/
def flush (k : Socket) : Socket := { k with flushed := k.written.length }

/-- What was written and not flushed: the stream may still hold it back. -/
def buffered (k : Socket) : List UInt8 := k.written.drop k.flushed

/-- A read of `chunk` is possible: some bytes, all of them already here. -/
def CanTake (k : Socket) (chunk : List UInt8) : Prop := chunk ≠ [] ∧ chunk <+: k.inbox

/-- A read finds the end of the stream: nothing is left and nothing will come. -/
def AtEnd (k : Socket) : Prop := k.inbox = [] ∧ k.readEnd.isSome

theorem buffered_eq_nil {k : Socket} : k.buffered = [] ↔ k.written.length ≤ k.flushed :=
  List.drop_eq_nil_iff

/-- A stream with nothing in its buffer holds back what is written next. -/
theorem buffered_write {k : Socket} {chunk : List UInt8} (h : k.flushed = k.written.length) :
    (k.write chunk).buffered = chunk := by
  rw [buffered, write, h, List.drop_left]

@[simp] theorem buffered_flush (k : Socket) : k.flush.buffered = [] := List.drop_length

@[simp] theorem flushed_take (k : Socket) (chunk : List UInt8) :
    (k.take chunk).flushed = k.flushed := rfl

@[simp] theorem flushed_write (k : Socket) (chunk : List UInt8) :
    (k.write chunk).flushed = k.flushed := rfl

@[simp] theorem flushed_flush (k : Socket) : k.flush.flushed = k.written.length := rfl

@[simp] theorem flushed_arrive (k : Socket) (chunk : List UInt8) :
    (k.arrive chunk).flushed = k.flushed := rfl

@[simp] theorem flushed_finish (k : Socket) (e : ReadEnd) : (k.finish e).flushed = k.flushed := rfl

@[simp] theorem arrived_arrive (k : Socket) (chunk : List UInt8) :
    (k.arrive chunk).arrived = k.arrived ++ chunk := by
  simp [arrived, arrive]

theorem tail_arrived_arrive {k : Socket} (hread : k.read ≠ []) (chunk : List UInt8) :
    (k.arrive chunk).arrived.tail = k.arrived.tail ++ chunk := by
  have harrived : k.arrived ≠ [] := List.append_ne_nil_of_left_ne_nil hread _
  rw [arrived_arrive, List.tail_append_of_ne_nil harrived]

@[simp] theorem read_arrive (k : Socket) (chunk : List UInt8) :
    (k.arrive chunk).read = k.read := rfl

@[simp] theorem written_arrive (k : Socket) (chunk : List UInt8) :
    (k.arrive chunk).written = k.written := rfl

@[simp] theorem read_take (k : Socket) (chunk : List UInt8) :
    (k.take chunk).read = k.read ++ chunk := rfl

@[simp] theorem written_take (k : Socket) (chunk : List UInt8) :
    (k.take chunk).written = k.written := rfl

/-- Reading moves bytes from the inbox without losing or inventing any. -/
theorem arrived_take {k : Socket} {chunk : List UInt8} (h : k.CanTake chunk) :
    (k.take chunk).arrived = k.arrived := by
  obtain ⟨rest, hrest⟩ := h.2
  simp [arrived, take, ← hrest]

theorem inbox_take {k : Socket} {chunk : List UInt8} (h : k.CanTake chunk) :
    k.inbox = chunk ++ (k.take chunk).inbox := by
  obtain ⟨rest, hrest⟩ := h.2
  simp [take, ← hrest]

theorem length_take_lt {k : Socket} {chunk : List UInt8} (h : k.CanTake chunk) :
    (k.take chunk).inbox.length < k.inbox.length := by
  have hpos := List.length_pos_of_ne_nil h.1
  rw [inbox_take h, List.length_append]
  omega

@[simp] theorem arrived_write (k : Socket) (chunk : List UInt8) :
    (k.write chunk).arrived = k.arrived := rfl

@[simp] theorem read_write (k : Socket) (chunk : List UInt8) : (k.write chunk).read = k.read := rfl

@[simp] theorem inbox_write (k : Socket) (chunk : List UInt8) :
    (k.write chunk).inbox = k.inbox := rfl

@[simp] theorem written_write (k : Socket) (chunk : List UInt8) :
    (k.write chunk).written = k.written ++ chunk := rfl

theorem write_write (k : Socket) (chunk more : List UInt8) :
    (k.write chunk).write more = k.write (chunk ++ more) := by
  simp [write]

@[simp] theorem readEnd_take (k : Socket) (chunk : List UInt8) :
    (k.take chunk).readEnd = k.readEnd := rfl

@[simp] theorem readEnd_write (k : Socket) (chunk : List UInt8) :
    (k.write chunk).readEnd = k.readEnd := rfl

@[simp] theorem readEnd_flush (k : Socket) : k.flush.readEnd = k.readEnd := rfl

@[simp] theorem arrived_flush (k : Socket) : k.flush.arrived = k.arrived := rfl

@[simp] theorem read_flush (k : Socket) : k.flush.read = k.read := rfl

@[simp] theorem inbox_flush (k : Socket) : k.flush.inbox = k.inbox := rfl

@[simp] theorem written_flush (k : Socket) : k.flush.written = k.written := rfl

@[simp] theorem arrived_finish (k : Socket) (e : ReadEnd) : (k.finish e).arrived = k.arrived := rfl

@[simp] theorem read_finish (k : Socket) (e : ReadEnd) : (k.finish e).read = k.read := rfl

@[simp] theorem inbox_finish (k : Socket) (e : ReadEnd) : (k.finish e).inbox = k.inbox := rfl

@[simp] theorem written_finish (k : Socket) (e : ReadEnd) :
    (k.finish e).written = k.written := rfl

/-- The other side sends `bytes` and closes the stream: what has come in is a front part
of them, and the end comes behind all of them. -/
structure Delivers (bytes : List UInt8) (k : Socket) : Prop where
  arrived : k.arrived <+: bytes
  ended : ∀ e, k.readEnd = some e → e = .eof ∧ k.arrived = bytes

/-- What is still to be read of a stream of these bytes. -/
def unread (bytes : List UInt8) (k : Socket) : List UInt8 := bytes.drop k.read.length

theorem Delivers.congr {bytes : List UInt8} {k k' : Socket} (h : k.Delivers bytes)
    (harrived : k'.arrived = k.arrived) (hend : k'.readEnd = k.readEnd) : k'.Delivers bytes := by
  refine ⟨by rw [harrived]; exact h.arrived, fun e he => ?_⟩
  rw [harrived]
  exact h.ended e (hend ▸ he)

theorem delivers_arrive (bytes : List UInt8) : (fresh.arrive bytes).Delivers bytes :=
  ⟨List.prefix_rfl, fun _ hend => nomatch hend⟩

/-- All of the bytes have come in, and some of them were read. -/
theorem delivers_of_split {bytes got rest : List UInt8} {k : Socket}
    (hend : k.readEnd = some .eof) (hall : got ++ rest = bytes) :
    Delivers bytes { k with read := got, inbox := rest } := by
  refine ⟨hall ▸ List.prefix_rfl, fun e he => ?_⟩
  have heof : k.readEnd = some e := he
  rw [hend] at heof
  cases heof
  exact ⟨rfl, hall⟩

theorem canTake_append {got chunk rest : List UInt8} {k : Socket} (hchunk : chunk ≠ []) :
    CanTake { k with read := got, inbox := chunk ++ rest } chunk :=
  ⟨hchunk, List.prefix_append ..⟩

theorem take_append (k : Socket) (got chunk rest : List UInt8) :
    take { k with read := got, inbox := chunk ++ rest } chunk =
      { k with read := got ++ chunk, inbox := rest } := by
  rw [take, List.drop_left]

/-- A read takes its chunk off the front of what is unread. -/
theorem Delivers.unread_take {bytes chunk : List UInt8} {k : Socket} (h : k.Delivers bytes)
    (htake : k.CanTake chunk) : k.unread bytes = chunk ++ (k.take chunk).unread bytes := by
  obtain ⟨more, hmore⟩ := h.arrived
  have hinbox := inbox_take htake
  rw [Socket.arrived, hinbox, List.append_assoc, List.append_assoc] at hmore
  rw [unread, unread, read_take, List.length_append, ← List.drop_drop, ← hmore, List.drop_left,
    List.drop_left]

/-- A stream that is at its end was read to the end. -/
theorem Delivers.unread_of_atEnd {bytes : List UInt8} {k : Socket} (h : k.Delivers bytes)
    (hend : k.AtEnd) : k.read = bytes ∧ k.unread bytes = [] := by
  obtain ⟨e, he⟩ := Option.isSome_iff_exists.mp hend.2
  have hread := (h.ended e he).2
  rw [Socket.arrived, hend.1, List.append_nil] at hread
  refine ⟨hread, ?_⟩
  rw [unread, hread, List.drop_length]

end Socket

end Channel
