import MidiPatch.Inlet.Basic
import MidiPatch.Proofs.OpenMessage

/-!
# What an inlet passes on

The decoder of an inlet stays valid whatever bytes its queue holds and whatever its handlers put
there, so each message that a handler hears is well-formed and within the limit.
-/

namespace MidiPatch

namespace Decoder

theorem Valid.reset {d : Decoder} (valid : d.Valid) : d.reset.Valid := ⟨valid.room, .idle, nofun⟩

end Decoder

namespace Inlet

variable {η : Type} {options : Decoder.Options}

structure Listens (options : Decoder.Options) (i : Inlet η) : Prop where
  valid : i.decoder.Valid
  options : i.decoder.options = options

structure Pass.Sound (options : Decoder.Options) (p : Pass η) : Prop where
  listens : p.inlet.Listens options
  calls : ∀ c ∈ p.calls, Decoder.Sound options.maxSysEx c.message

theorem Listens.reset {i : Inlet η} (listens : i.Listens options) : i.reset.Listens options :=
  ⟨listens.valid.reset, listens.options⟩

theorem Listens.start {i : Inlet η} (listens : i.Listens options) :
    Pass.Sound options { inlet := i } := ⟨listens, nofun⟩

namespace Pass

variable {p : Pass η} {echo : Echo η}

theorem Sound.call {c : Call η} (sound : p.Sound options)
    (heard : Decoder.Sound options.maxSysEx c.message) : (p.call echo c).Sound options := by
  refine ⟨⟨sound.listens.valid, sound.listens.options⟩, ?_⟩
  intro c' member
  rcases List.mem_append.mp member with old | new
  · exact sound.calls c' old
  · rw [List.mem_singleton.mp new]; exact heard

theorem Sound.callAll {calls : List (Call η)} (sound : p.Sound options)
    (heard : ∀ c ∈ calls, Decoder.Sound options.maxSysEx c.message) :
    (calls.foldl (Pass.call echo) p).Sound options := by
  induction calls generalizing p with
  | nil => exact sound
  | cons c rest ih =>
    obtain ⟨now, later⟩ := List.forall_mem_cons.mp heard
    exact ih (sound.call now) later

theorem Sound.feed (sound : p.Sound options) (b : UInt8) : (p.feed echo b).Sound options := by
  obtain ⟨⟨valid, same⟩, calls⟩ := sound
  obtain ⟨next, given⟩ := Decoder.feed_valid valid b
  have kept := (Decoder.feed_options p.inlet.decoder b).trans same
  unfold Pass.feed
  cases fed : p.inlet.decoder.feed b with
  | mk d m =>
    rw [same, fed] at given
    rw [fed] at next kept
    have listens : Inlet.Listens options { p.inlet with decoder := d } := ⟨next, kept⟩
    cases m with
    | none => exact ⟨listens, calls⟩
    | some m =>
      refine Sound.callAll ⟨listens, calls⟩ ?_
      intro c member
      obtain ⟨h, -, rfl⟩ := List.mem_map.mp member
      exact given m rfl

/-- Draining a queue takes batches out of it and decodes their bytes, and nothing else. -/
theorem drain_keeps {P : Pass η → Prop} (taken : ∀ p queue, P p → P { p with inlet.queue := queue })
    (fed : ∀ p b, P p → P (p.feed echo b)) {batch remaining : Nat} (start : P p) :
    P (p.drain echo batch remaining) := by
  induction remaining using Nat.strongRecOn generalizing p with
  | ind remaining ih =>
    rw [Pass.drain]
    split
    · exact start
    · dsimp only
      split
      · exact start
      · refine ih _ ?_ ?_
        · omega
        · exact List.foldlRecOn _ _ (taken _ _ start) fun p keeps b _ => fed p b keeps

theorem Sound.drain {batch remaining : Nat} (sound : p.Sound options) :
    (p.drain echo batch remaining).Sound options :=
  drain_keeps (fun _ _ sound => ⟨⟨sound.listens.valid, sound.listens.options⟩, sound.calls⟩)
    (fun _ b sound => sound.feed b) sound

end Pass

theorem Listens.feed {i : Inlet η} (listens : i.Listens options) (echo : Echo η) (b : UInt8) :
    (i.feed echo b).Sound options := listens.start.feed b

theorem Listens.process {i : Inlet η} (listens : i.Listens options) (echo : Echo η) :
    (i.process echo).Sound options := listens.start.drain

end Inlet

end MidiPatch
