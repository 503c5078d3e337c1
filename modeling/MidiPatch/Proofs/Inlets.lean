import MidiPatch.Proofs.Draining
import MidiPatch.Proofs.Recovery

/-!
# The calls of an inlet

Handlers of an inlet come and go while bytes reach its decoder through the queue or past it. The
handlers hear what a decoder alone makes of these bytes, each message once, and who hears a message
depends only on which handlers were installed and removed before it (`inlet_calls`).
-/

namespace MidiPatch

/-! ### Items and what came before them -/

/-- Each item of a list with the items before it. -/
def withPast {α : Type} (past : List α) : List α → List (List α × α)
  | [] => []
  | a :: rest => (past, a) :: withPast (past ++ [a]) rest

theorem withPast_snoc {α : Type} (past xs : List α) (a : α) :
    withPast past (xs ++ [a]) = withPast past xs ++ [(past ++ xs, a)] := by
  induction xs generalizing past with
  | nil => rw [List.append_nil]; rfl
  | cons x rest ih =>
    rw [List.cons_append, withPast, ih, List.append_assoc]
    rfl

theorem getLast?_filterMap_snoc {α β : Type} (f : α → Option β) (xs : List α) (a : α) :
    ((xs ++ [a]).filterMap f).getLast? = (f a).or (xs.filterMap f).getLast? := by
  rw [List.filterMap_append]
  cases given : f a <;> simp [given]

namespace Decoder

/-- The messages that a decoder gives meanwhile. -/
def given (d : Decoder) : List Event → List Message
  | [] => []
  | .byte b :: rest => (d.feed b).2.toList ++ (d.feed b).1.given rest
  | .reset :: rest => d.reset.given rest

theorem given_append (d : Decoder) (events more : List Event) :
    d.given (events ++ more) = d.given events ++ (d.after events).given more := by
  induction events generalizing d with
  | nil => rfl
  | cons event rest ih =>
    cases event with
    | byte b =>
      rw [List.cons_append, given, given, ih, List.append_assoc]
      rfl
    | reset => exact ih d.reset

theorem after_append (d : Decoder) (events more : List Event) :
    d.after (events ++ more) = (d.after events).after more := List.foldl_append ..

theorem after_bytes (d : Decoder) (bytes : List UInt8) :
    d.after (bytes.map .byte) = (d.feedAll bytes).1 ∧
      d.given (bytes.map .byte) = (d.feedAll bytes).2 := by
  induction bytes generalizing d with
  | nil => exact ⟨rfl, rfl⟩
  | cons b rest ih =>
    obtain ⟨state, messages⟩ := ih (d.feed b).1
    rw [feedAll_cons, ← state, ← messages]
    exact ⟨rfl, rfl⟩

end Decoder

namespace Inlet

variable {η : Type}

/-- What can happen to an inlet. -/
inductive Event (η : Type)
  | on (kind : Kind) (handler : η)
  | onAny (handler : η)
  | onUnhandled (handler : η)
  | unregister (kind : Kind)
  | enqueue (bytes : List UInt8)
  | feed (b : UInt8)
  | process
  | reset
  deriving DecidableEq, Repr

/-- An inlet with a record of the calls of its handlers, which do nothing else. -/
structure Watched (η : Type) where
  inlet : Inlet η
  calls : List (Call η) := []
  /-- How many messages each processing of the queue gave. -/
  counts : List Nat := []

namespace Watched

def start (source : SourceId) (name : String) (capacity : Nat) (options : Decoder.Options) :
    Watched η :=
  { inlet := .new source name capacity options }

def step (s : Watched η) : Event η → Watched η
  | .on k h => { s with inlet.handlers := s.inlet.handlers.register k h }
  | .onAny h => { s with inlet.handlers := s.inlet.handlers.registerCatchAll h }
  | .onUnhandled h => { s with inlet.handlers := s.inlet.handlers.registerFallthrough h }
  | .unregister k => { s with inlet.handlers := s.inlet.handlers.unregister k }
  | .enqueue bytes => { s with inlet.queue := (s.inlet.queue.enqueueAll bytes).1 }
  | .feed b =>
    let p := s.inlet.feed silent b
    { s with inlet := p.inlet, calls := s.calls ++ p.calls }
  | .process =>
    let p := s.inlet.process silent
    { inlet := p.inlet, calls := s.calls ++ p.calls, counts := s.counts ++ [p.messages.length] }
  | .reset => { s with inlet := s.inlet.reset }

def run (s : Watched η) (events : List (Event η)) : Watched η := events.foldl step s

theorem run_snoc (s : Watched η) (events : List (Event η)) (e : Event η) :
    s.run (events ++ [e]) = (s.run events).step e := List.foldl_concat ..

end Watched

/-! ### What is left of the past -/

namespace Event

/-- What an event leaves as the handler of a kind, if it is about that kind. -/
def handler? (k : Kind) : Event η → Option (Option η)
  | on k' h => if k' = k then some (some h) else none
  | unregister k' => if k' = k then some none else none
  | _ => none

def catchAll? : Event η → Option η
  | onAny h => some h
  | _ => none

def fallthrough? : Event η → Option η
  | onUnhandled h => some h
  | _ => none

def empties : Event η → Bool
  | process | reset => true
  | _ => false

def offers : Event η → List UInt8
  | enqueue bytes => bytes
  | _ => []

end Event

/-- The handler of a kind is the one that was installed last, unless it was removed since. -/
def handlerOf (past : List (Event η)) (k : Kind) : Option η :=
  (past.filterMap (Event.handler? k)).getLast?.join

/-- The calls that a message causes after these events. -/
def group (source : SourceId) (past : List (Event η)) (m : Message) : List (Call η) :=
  let own := (handlerOf past m.kind).or (past.filterMap Event.fallthrough?).getLast?
  let all := (past.filterMap Event.catchAll?).getLast?
  (own.toList ++ all.toList).map fun h => { handler := h, source := source, message := m }

/-- The queue holds the first bytes that it was offered since it was emptied, as many as fit. -/
def queued (capacity : Nat) (past : List (Event η)) : List UInt8 :=
  ((past.rtakeWhile (!·.empties)).flatMap Event.offers).take capacity

/-- What an event means to the decoder. -/
def Event.toDecoder (capacity : Nat) (past : List (Event η)) : Event η → List Decoder.Event
  | .feed b => [.byte b]
  | .process => (queued capacity past).map .byte
  | .reset => [.reset]
  | _ => []

def script (capacity : Nat) (events : List (Event η)) : List Decoder.Event :=
  (withPast [] events).flatMap fun (past, e) => e.toDecoder capacity past

/-- The messages that a decoder on its own completes during an event. -/
def completed (options : Decoder.Options) (capacity : Nat) (past : List (Event η)) (e : Event η) :
    List Message :=
  ((Decoder.new options).after (script capacity past)).given (e.toDecoder capacity past)

/-! ### One event -/

theorem script_snoc (capacity : Nat) (events : List (Event η)) (e : Event η) :
    script capacity (events ++ [e]) = script capacity events ++ e.toDecoder capacity events := by
  unfold script
  rw [withPast_snoc, List.flatMap_append, List.flatMap_singleton, List.nil_append]

theorem queued_emptied (capacity : Nat) (past : List (Event η)) (e : Event η)
    (empties : e.empties = true) : queued capacity (past ++ [e]) = [] := by
  unfold queued
  rw [List.rtakeWhile_concat_neg _ _ _ (by simp [empties]), List.flatMap_nil, List.take_nil]

theorem queued_offered (capacity : Nat) (past : List (Event η)) (e : Event η)
    (keeps : e.empties = false) :
    queued capacity (past ++ [e]) =
      queued capacity past ++ e.offers.take (capacity - (queued capacity past).length) := by
  unfold queued
  rw [List.rtakeWhile_concat_pos _ _ _ (by simp [keeps]), List.flatMap_append,
    List.flatMap_singleton, List.take_append, List.length_take]
  -- The room left is the same whether it is counted from all that was offered or from what fitted.
  congr 2
  omega

theorem queued_kept (capacity : Nat) (past : List (Event η)) (e : Event η)
    (keeps : e.empties = false) (silent : e.offers = []) :
    queued capacity (past ++ [e]) = queued capacity past := by
  rw [queued_offered capacity past e keeps, silent, List.take_nil, List.append_nil]

theorem script_kept (capacity : Nat) (past : List (Event η)) (e : Event η)
    (apart : e.toDecoder capacity past = []) :
    script capacity (past ++ [e]) = script capacity past := by
  rw [script_snoc, apart, List.append_nil]

/-- The handlers that a table has are those the past has left. -/
structure Installed (past : List (Event η)) (t : HandlerTable η) : Prop where
  ofKind : ∀ k, t.ofKind k = handlerOf past k
  catchAll : t.catchAll = (past.filterMap Event.catchAll?).getLast?
  fallthrough : t.fallthrough = (past.filterMap Event.fallthrough?).getLast?

namespace Installed

variable {past : List (Event η)} {t : HandlerTable η}

theorem calls (installed : Installed past t) (source : SourceId) (m : Message) :
    t.calls source m = group source past m := by
  unfold HandlerTable.calls HandlerTable.hearers group
  rw [installed.ofKind, installed.catchAll, installed.fallthrough]

theorem snoc {t' : HandlerTable η} {e : Event η} (installed : Installed past t)
    (ofKind : ∀ k, t'.ofKind k = (e.handler? k).getD (t.ofKind k))
    (catchAll : t'.catchAll = e.catchAll?.or t.catchAll)
    (fallthrough : t'.fallthrough = e.fallthrough?.or t.fallthrough) :
    Installed (past ++ [e]) t' := by
  refine ⟨fun k => ?_, ?_, ?_⟩
  · rw [ofKind, installed.ofKind, handlerOf, handlerOf, getLast?_filterMap_snoc]
    cases e.handler? k <;> rfl
  · rw [catchAll, installed.catchAll, getLast?_filterMap_snoc]
  · rw [fallthrough, installed.fallthrough, getLast?_filterMap_snoc]

end Installed

/-- An inlet that was made with these values and has been through these events. -/
structure Follows (source : SourceId) (capacity : Nat) (options : Decoder.Options)
    (past : List (Event η)) (i : Inlet η) : Prop where
  source : i.source = source
  installed : Installed past i.handlers
  holds : i.queue.capacity = capacity
  queue : i.queue.bytes = queued capacity past
  decoder : i.decoder = (Decoder.new options).after (script capacity past)

namespace Follows

variable {source : SourceId} {capacity : Nat} {options : Decoder.Options} {past : List (Event η)}
  {i : Inlet η}

theorem handlers {t : HandlerTable η} {e : Event η}
    (follows : Follows source capacity options past i)
    (installed : Installed (past ++ [e]) t) (keeps : e.empties = false) (silent : e.offers = [])
    (apart : e.toDecoder capacity past = []) :
    Follows source capacity options (past ++ [e]) { i with handlers := t } := by
  refine ⟨follows.source, installed, follows.holds, ?_, ?_⟩
  · rw [queued_kept capacity past e keeps silent]
    exact follows.queue
  · rw [script_kept capacity past e apart]
    exact follows.decoder

theorem enqueue (follows : Follows source capacity options past i) (bytes : List UInt8) :
    Follows source capacity options (past ++ [.enqueue bytes])
      { i with queue := (i.queue.enqueueAll bytes).1 } := by
  obtain ⟨contents, -, fixed, -⟩ := i.queue.enqueueAll_takes bytes
  refine ⟨follows.source, follows.installed.snoc (fun _ => rfl) rfl rfl,
    fixed.trans follows.holds, ?_, ?_⟩
  · change (i.queue.enqueueAll bytes).1.bytes = _
    rw [contents, queued_offered capacity past (.enqueue bytes) rfl, Fifo.room, follows.holds,
      follows.queue]
    rfl
  · rw [script_kept capacity past (.enqueue bytes) rfl]
    exact follows.decoder

theorem reset (follows : Follows source capacity options past i) :
    Follows source capacity options (past ++ [.reset]) i.reset := by
  refine ⟨follows.source, follows.installed.snoc (fun _ => rfl) rfl rfl, follows.holds, ?_, ?_⟩
  · rw [queued_emptied capacity past .reset rfl]
    rfl
  · rw [script_snoc, Decoder.after_append, ← follows.decoder]
    rfl

/-- An event that makes the decoder read bytes, whether from the queue or past it. -/
theorem reads {e : Event η} {bytes left : List UInt8}
    (follows : Follows source capacity options past i)
    (installed : Installed (past ++ [e]) i.handlers)
    (told : e.toDecoder capacity past = bytes.map .byte)
    (rest : queued capacity (past ++ [e]) = left) :
    let p := ({ inlet := { i with queue.bytes := left } } : Pass η).after bytes
    Follows source capacity options (past ++ [e]) p.inlet ∧
      p.calls = (completed options capacity past e).flatMap (group source past) ∧
      p.messages = completed options capacity past e := by
  intro p
  obtain ⟨state, messages⟩ := i.decoder.after_bytes bytes
  have read : (i.decoder.feedAll bytes).2 = completed options capacity past e := by
    rw [← messages, completed, told, ← follows.decoder]
  refine ⟨⟨follows.source, installed, follows.holds, rest.symm, ?_⟩, ?_, read⟩
  · rw [script_snoc, Decoder.after_append, ← follows.decoder, told, state]
    rfl
  · -- No handler is changed meanwhile, so one table serves all the messages.
    have table : i.handlers.calls source = group source past :=
      funext (follows.installed.calls source)
    change [] ++ (i.decoder.feedAll bytes).2.flatMap (i.handlers.calls i.source) = _
    rw [List.nil_append, read, follows.source, table]

theorem feed (follows : Follows source capacity options past i) (b : UInt8) :
    let p := i.feed silent b
    Follows source capacity options (past ++ [.feed b]) p.inlet ∧
      p.calls = (completed options capacity past (.feed b)).flatMap (group source past) ∧
      p.messages = completed options capacity past (.feed b) := by
  have installed := follows.installed.snoc (e := .feed b) (fun _ => rfl) rfl rfl
  have rest : queued capacity (past ++ [.feed b]) = i.queue.bytes := by
    rw [queued_kept capacity past (.feed b) rfl rfl, follows.queue]
  rw [Inlet.feed, Pass.feed_silent]
  exact follows.reads installed rfl rest

theorem process (follows : Follows source capacity options past i) :
    let p := i.process silent
    Follows source capacity options (past ++ [.process]) p.inlet ∧
      p.calls = (completed options capacity past .process).flatMap (group source past) ∧
      p.messages = completed options capacity past .process := by
  have installed := follows.installed.snoc (e := .process) (fun _ => rfl) rfl rfl
  have told : (Event.process (η := η)).toDecoder capacity past = i.queue.bytes.map .byte := by
    rw [follows.queue]
    rfl
  rw [process_silent]
  exact follows.reads installed told (queued_emptied capacity past .process rfl)

end Follows

/-! ### All events -/

namespace Watched

/-- The number that an event gives back, if it processes the queue. -/
def count? (options : Decoder.Options) (capacity : Nat) (past : List (Event η)) :
    Event η → Option Nat
  | .process => some (completed options capacity past .process).length
  | _ => none

variable {source : SourceId} {capacity : Nat} {options : Decoder.Options} {past : List (Event η)}
  {s : Watched η}

theorem step_follows (follows : Follows source capacity options past s.inlet) (e : Event η) :
    Follows source capacity options (past ++ [e]) (s.step e).inlet ∧
      (s.step e).calls =
        s.calls ++ (completed options capacity past e).flatMap (group source past) ∧
      (s.step e).counts = s.counts ++ (count? options capacity past e).toList := by
  have nothing : ∀ {α : Type} (xs : List α), xs = xs ++ [] := fun xs => (List.append_nil xs).symm
  cases e with
  | on k h =>
    refine ⟨follows.handlers (follows.installed.snoc (fun k' => ?_) rfl rfl) rfl rfl rfl,
      nothing _, nothing _⟩
    by_cases same : k' = k
    · simp [HandlerTable.register, Event.handler?, same]
    · simp [HandlerTable.register, Event.handler?, same, Ne.symm same]
  | onAny h =>
    exact ⟨follows.handlers (follows.installed.snoc (fun _ => rfl) rfl rfl) rfl rfl rfl,
      nothing _, nothing _⟩
  | onUnhandled h =>
    exact ⟨follows.handlers (follows.installed.snoc (fun _ => rfl) rfl rfl) rfl rfl rfl,
      nothing _, nothing _⟩
  | unregister k =>
    refine ⟨follows.handlers (follows.installed.snoc (fun k' => ?_) rfl rfl) rfl rfl rfl,
      nothing _, nothing _⟩
    by_cases same : k' = k
    · simp [HandlerTable.unregister, Event.handler?, same]
    · simp [HandlerTable.unregister, Event.handler?, same, Ne.symm same]
  | enqueue bytes => exact ⟨follows.enqueue bytes, nothing _, nothing _⟩
  | feed b =>
    obtain ⟨next, calls, -⟩ := follows.feed b
    exact ⟨next, congrArg (s.calls ++ ·) calls, nothing _⟩
  | process =>
    obtain ⟨next, calls, messages⟩ := follows.process
    refine ⟨next, congrArg (s.calls ++ ·) calls, ?_⟩
    exact congrArg (fun ms => s.counts ++ [ms.length]) messages
  | reset => exact ⟨follows.reset, nothing _, nothing _⟩

theorem start_follows (source : SourceId) (name : String) (capacity : Nat)
    (options : Decoder.Options) :
    Follows source (max 1 capacity) options []
      (start (η := η) source name capacity options).inlet :=
  ⟨rfl, ⟨fun _ => rfl, rfl, rfl⟩, rfl, List.take_nil.symm, rfl⟩

theorem run_follows (source : SourceId) (name : String) (capacity : Nat)
    (options : Decoder.Options) (events : List (Event η)) :
    let s := (start source name capacity options).run events
    let room := max 1 capacity
    Follows source room options events s.inlet ∧
      s.calls = (withPast [] events).flatMap (fun (past, e) =>
        (completed options room past e).flatMap (group source past)) ∧
      s.counts = (withPast [] events).filterMap fun (past, e) => count? options room past e := by
  -- From the end, because what an event does depends on all events before it.
  induction events using List.reverseRecOn with
  | nil => exact ⟨start_follows source name capacity options, rfl, rfl⟩
  | append_singleton events e ih =>
    obtain ⟨follows, calls, counts⟩ := ih
    obtain ⟨next, called, counted⟩ := step_follows follows e
    dsimp only
    rw [run_snoc, withPast_snoc, List.flatMap_append, List.filterMap_append, ← calls, ← counts,
      List.flatMap_singleton, List.filterMap_eq_flatMap_toList, List.flatMap_singleton]
    exact ⟨next, called, counted⟩

end Watched

theorem completed_given (options : Decoder.Options) (capacity : Nat) (events : List (Event η)) :
    (withPast [] events).flatMap (fun (past, e) => completed options capacity past e) =
      (Decoder.new options).given (script capacity events) := by
  induction events using List.reverseRecOn with
  | nil => rfl
  | append_singleton events e ih =>
    rw [withPast_snoc, List.flatMap_append, ih, List.flatMap_singleton, script_snoc,
      Decoder.given_append]
    rfl

/--
Whatever happens to an inlet, its handlers are called for the messages of a decoder that is told of
the same bytes and resets, one group of calls for each message, in order. Processing the queue
counts the messages it gives.
-/
theorem inlet_calls (source : SourceId) (name : String) (capacity : Nat)
    (options : Decoder.Options) (events : List (Event η)) :
    let s := (Watched.start source name capacity options).run events
    let room := max 1 capacity
    let during := withPast [] events
    s.calls = during.flatMap (fun (past, e) =>
        (completed options room past e).flatMap (group source past)) ∧
      during.flatMap (fun (past, e) => completed options room past e) =
        (Decoder.new options).given (script room events) ∧
      s.counts = during.filterMap (fun (past, e) => Watched.count? options room past e) ∧
      s.inlet.queue.bytes = queued room events := by
  intro s room during
  obtain ⟨follows, calls, counts⟩ := Watched.run_follows source name capacity options events
  exact ⟨calls, completed_given options room events, counts, follows.queue⟩

/-- A handler is replaced amid a note, whose last byte comes after a clock. -/
example :
    let s := (Watched.start ⟨2⟩ "keys" 4 {}).run
      [.on .noteOn 1, .enqueue [0x90, 60], .process, .enqueue [100], .on .noteOn 2, .onAny 3,
        .feed 0xF8, .process]
    s.calls =
        [⟨3, ⟨2⟩, .realtime .clock⟩, ⟨2, ⟨2⟩, .noteOn 0 60 100⟩, ⟨3, ⟨2⟩, .noteOn 0 60 100⟩] ∧
      s.counts = [0, 1] := by
  cbv

end Inlet

end MidiPatch
