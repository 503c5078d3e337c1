import MidiPatch.Proofs.ByteClasses

/-!
# Well-formed messages

A message is well-formed when its fields fit the bits they have on the wire and a run is delimited
and holds data bytes only. `WellFormed.onWire` says what the bytes of such a message look like.
-/

namespace MidiPatch

open Wire

namespace Wire.Word14

theorem and_127 (n : Nat) : n &&& 127 = n % 128 := Nat.and_two_pow_sub_one_eq_mod n 7

theorem toNat_join (a b : UInt8) (low : a < 0x80) (high : b < 0x80) :
    (join a b).toNat = b.toNat * 128 + a.toNat := by
  have ha : a.toNat < 128 := low
  have hb : b.toNat < 128 := high
  rw [join, dataBits_of_lt a low, dataBits_of_lt b high, UInt16.toNat_or, UInt16.toNat_shiftLeft]
  simp only [UInt8.toNat_toUInt16]
  rw [show (7 : UInt16).toNat % 16 = 7 from rfl, Nat.mod_eq_of_lt (by rw [Nat.shiftLeft_eq]; omega),
    ← Nat.shiftLeft_add_eq_or_of_lt (by omega : a.toNat < 2 ^ 7), Nat.shiftLeft_eq]

theorem split_eq (v : UInt16) :
    split v = (UInt8.ofNat (v.toNat % 128), UInt8.ofNat (v.toNat / 128 % 128)) := by
  rw [split, Prod.mk.injEq]
  constructor
  · apply UInt8.toNat_inj.mp
    simp [and_127]
    omega
  · apply UInt8.toNat_inj.mp
    simp [and_127, Nat.shiftRight_eq_div_pow]
    omega

theorem split_lt (v : UInt16) : (split v).1 < 0x80 ∧ (split v).2 < 0x80 := by
  rw [split_eq]
  simp only [UInt8.lt_iff_toNat_lt, UInt8.toNat_ofNat']
  constructor <;> simp <;> omega

theorem split_join (a b : UInt8) (low : a < 0x80) (high : b < 0x80) :
    split (join a b) = (a, b) := by
  have ha : a.toNat < 128 := low
  have hb : b.toNat < 128 := high
  rw [split_eq, toNat_join a b low high, Prod.mk.injEq]
  constructor
  · rw [show (b.toNat * 128 + a.toNat) % 128 = a.toNat by omega, UInt8.ofNat_toNat]
  · rw [show (b.toNat * 128 + a.toNat) / 128 % 128 = b.toNat by omega, UInt8.ofNat_toNat]

theorem join_split (v : UInt16) (fits : v ≤ largest) : join (split v).1 (split v).2 = v := by
  have hv : v.toNat ≤ 16383 := fits
  obtain ⟨low, high⟩ := split_lt v
  apply UInt16.toNat_inj.mp
  rw [toNat_join _ _ low high, split_eq]
  simp only [UInt8.toNat_ofNat']
  omega

theorem join_le (a b : UInt8) (low : a < 0x80) (high : b < 0x80) : join a b ≤ largest := by
  have ha : a.toNat < 128 := low
  have hb : b.toNat < 128 := high
  rw [UInt16.le_iff_toNat_le, toNat_join a b low high]
  simp only [largest]
  change _ ≤ 16383
  omega

end Wire.Word14

/-! ### Fields in range -/

/-- Both delimiters, and nothing but data bytes between them. -/
def SysEx.WellFormed (x : SysEx) : Prop :=
  x.data = sysExBegin :: x.payload ++ [sysExEnd] ∧ ∀ b ∈ x.payload, b < 0x80

instance : DecidablePred SysEx.WellFormed := fun x =>
  have := List.decidableBAll (· < (0x80 : UInt8)) x.payload
  inferInstanceAs
    (Decidable (x.data = sysExBegin :: x.payload ++ [sysExEnd] ∧ ∀ b ∈ x.payload, b < 0x80))

theorem SysEx.payload_delimited (body : List UInt8) (cut : Bool) :
    SysEx.payload { data := sysExBegin :: body ++ [sysExEnd], truncated := cut } = body := by
  simp [SysEx.payload]

theorem SysEx.wellFormed_delimited {body : List UInt8} (cut : Bool) (data : ∀ b ∈ body, b < 0x80) :
    SysEx.WellFormed { data := sysExBegin :: body ++ [sysExEnd], truncated := cut } := by
  unfold SysEx.WellFormed
  rw [SysEx.payload_delimited]
  exact ⟨rfl, data⟩

namespace Message

def WellFormed : Message → Prop
  | noteOff c a b | noteOn c a b | aftertouch c a b | controlChange c a b =>
    c < 16 ∧ a < 0x80 ∧ b < 0x80
  | programChange c a | channelPressure c a => c < 16 ∧ a < 0x80
  | pitchBend c v => c < 16 ∧ v ≤ Word14.largest
  | quarterFrame a | songSelect a => a < 0x80
  | songPosition v => v ≤ Word14.largest
  | tuneRequest | realtime _ => True
  | sysEx x => x.WellFormed

instance : DecidablePred WellFormed
  | noteOff _ _ _ | noteOn _ _ _ | aftertouch _ _ _ | controlChange _ _ _ =>
    inferInstanceAs (Decidable (_ ∧ _ ∧ _))
  | programChange _ _ | channelPressure _ _ | pitchBend _ _ => inferInstanceAs (Decidable (_ ∧ _))
  | quarterFrame _ | songSelect _ => inferInstanceAs (Decidable (_ < _))
  | songPosition _ => inferInstanceAs (Decidable (_ ≤ _))
  | tuneRequest | realtime _ => inferInstanceAs (Decidable True)
  | sysEx x => inferInstanceAs (Decidable x.WellFormed)

def isTruncated : Message → Bool
  | sysEx x => x.truncated
  | _ => false

/-- The bytes a run takes, delimiters included; no other message counts against a capture limit. -/
def runLength : Message → Nat
  | sysEx x => x.data.length
  | _ => 0

/-- A message apart from the mark on a run that was cut. -/
def unmarked : Message → Message
  | sysEx x => sysEx { x with truncated := false }
  | m => m

/-- What a receiver keeps of a message when it captures runs of at most `limit` bytes. -/
def clip (limit : Nat) : Message → Message
  | sysEx x =>
    sysEx
      { data := sysExBegin :: x.payload.take (limit - 2) ++ [sysExEnd]
        truncated := decide (limit - 2 < x.payload.length) }
  | m => m

theorem clip_of_fits {m : Message} {limit : Nat} (wf : m.WellFormed) (fits : m.runLength ≤ limit) :
    m.clip limit = m.unmarked := by
  cases m with
  | sysEx x =>
    obtain ⟨delimited, -⟩ := wf
    have len : x.payload.length + 2 ≤ limit := by
      have := congrArg List.length delimited
      simp only [runLength] at fits
      simp at this
      omega
    simp only [clip, unmarked, List.take_of_length_le (show x.payload.length ≤ limit - 2 by omega),
      ← delimited, show ¬ limit - 2 < x.payload.length by omega, decide_false]
  | _ => rfl

theorem unmarked_of_whole {m : Message} (whole : m.isTruncated = false) : m.unmarked = m := by
  cases m with
  | sysEx x =>
    cases x
    simp only [isTruncated] at whole
    simp [unmarked, whole]
  | _ => rfl

/-- A message that a decoder with this limit gives out as it was. -/
structure Clean (limit : Nat) (m : Message) : Prop where
  wellFormed : m.WellFormed
  whole : m.isTruncated = false
  fits : m.runLength ≤ limit

theorem Clean.clip {m : Message} {limit : Nat} (clean : m.Clean limit) :
    m.clip limit = m := by
  rw [clip_of_fits clean.wellFormed clean.fits, unmarked_of_whole clean.whole]

/-! ### The bytes of a well-formed message -/

/-- How the bytes of a well-formed message look, by the number of data bytes it has. -/
inductive OnWire : Message → List UInt8 → Prop
  | realtime (k : Realtime) : OnWire (.realtime k) [k.byte]
  | tune : OnWire .tuneRequest [Wire.tuneRequest]
  | two {m : Message} {s a : UInt8} (status : m.status = s) (length : lengthOf s = .two)
      (data : a < 0x80) (read : ofBytes? [s, a] = some m) : OnWire m [s, a]
  | three {m : Message} {s a b : UInt8} (status : m.status = s) (length : lengthOf s = .three)
      (low : a < 0x80) (high : b < 0x80) (read : ofBytes? [s, a, b] = some m) : OnWire m [s, a, b]
  | run {body : List UInt8} (cut : Bool) (data : ∀ b ∈ body, b < 0x80) :
      OnWire (.sysEx { data := sysExBegin :: body ++ [sysExEnd], truncated := cut })
        (sysExBegin :: body ++ [sysExEnd])

theorem channel_bits (c : UInt8) (low : c < 16) :
    ∀ base ∈ [0x80, 0x90, 0xA0, 0xB0, 0xC0, 0xD0, 0xE0],
      base ≤ base ||| c ∧ base ||| c < base + 16 ∧ channelBits (base ||| c) = c := by
  revert c; exact forall_byte (by decide +kernel)

theorem channel_status (c : UInt8) (low : c < 16) (a b : UInt8) :
    ofStatus? (0x80 ||| c) a b = some (noteOff c a b) ∧
    ofStatus? (0x90 ||| c) a b = some (noteOn c a b) ∧
    ofStatus? (0xA0 ||| c) a b = some (aftertouch c a b) ∧
    ofStatus? (0xB0 ||| c) a b = some (controlChange c a b) ∧
    ofStatus? (0xC0 ||| c) a b = some (programChange c a) ∧
    ofStatus? (0xD0 ||| c) a b = some (channelPressure c a) ∧
    ofStatus? (0xE0 ||| c) a b = some (pitchBend c (Word14.join a b)) := by
  have bits := channel_bits c low
  simp only [List.forall_mem_cons, List.not_mem_nil, false_implies, implies_true, and_true] at bits
  unfold ofStatus?
  and_intros <;> grind

theorem channel_length (c : UInt8) (low : c < 16) :
    (∀ base ∈ [0x80, 0x90, 0xA0, 0xB0, 0xE0], lengthOf (base ||| c) = .three) ∧
      ∀ base ∈ [0xC0, 0xD0], lengthOf (base ||| c) = .two := by
  have bits := channel_bits c low
  simp only [List.forall_mem_cons, List.not_mem_nil, false_implies, implies_true, and_true] at bits ⊢
  grind [lengthOf]

theorem length_encode (m : Message) (fixed : ∀ x, m ≠ sysEx x) :
    (lengthOf m.status).bytes? = some m.encode.length := by
  have three : ∀ base ∈ [0x80, 0x90, 0xA0, 0xB0, 0xE0], ∀ c,
      (lengthOf (base ||| channelBits c)).bytes? = some 3 := by
    intro base known c
    rw [(channel_length (channelBits c) (channelBits_lt c)).1 base known]; rfl
  have two : ∀ base ∈ [0xC0, 0xD0], ∀ c,
      (lengthOf (base ||| channelBits c)).bytes? = some 2 := by
    intro base known c
    rw [(channel_length (channelBits c) (channelBits_lt c)).2 base known]; rfl
  cases m with
  | noteOff c => exact three 0x80 (by simp) c
  | noteOn c => exact three 0x90 (by simp) c
  | aftertouch c => exact three 0xA0 (by simp) c
  | controlChange c => exact three 0xB0 (by simp) c
  | pitchBend c => exact three 0xE0 (by simp) c
  | programChange c => exact two 0xC0 (by simp) c
  | channelPressure c => exact two 0xD0 (by simp) c
  | realtime k => cases k <;> rfl
  | sysEx x => exact absurd rfl (fixed x)
  | _ => rfl

theorem ofBytes?_two {s a : UInt8} (length : lengthOf s = .two) (data : a < 0x80) :
    ofBytes? [s, a] = ofStatus? s a 0 := by
  have none := Realtime.ofByte?_of_lt s (status_of_two s length).2
  have plain := (open_of_two s length).2.2
  simp [ofBytes?, none, plain, length, Length.bytes?, dataBits_of_lt a data,
    show dataBits 0 = 0 from rfl]

theorem ofBytes?_three {s a b : UInt8} (length : lengthOf s = .three) (low : a < 0x80)
    (high : b < 0x80) : ofBytes? [s, a, b] = ofStatus? s a b := by
  have none := Realtime.ofByte?_of_lt s (status_of_three s length).2
  have plain := (open_of_three s length).2.2
  simp [ofBytes?, none, plain, length, Length.bytes?, dataBits_of_lt a low, dataBits_of_lt b high]

theorem onWire_two {m : Message} {a : UInt8} (length : lengthOf m.status = .two) (data : a < 0x80)
    (read : ofStatus? m.status a 0 = some m) : OnWire m [m.status, a] :=
  .two rfl length data ((ofBytes?_two length data).trans read)

theorem onWire_three {m : Message} {a b : UInt8} (length : lengthOf m.status = .three)
    (low : a < 0x80) (high : b < 0x80) (read : ofStatus? m.status a b = some m) :
    OnWire m [m.status, a, b] :=
  .three rfl length low high ((ofBytes?_three length low high).trans read)

theorem onWire_channel_three {m : Message} {base c a b : UInt8} (channel : c < 16)
    (status : m.status = base ||| channelBits c) (known : base ∈ [0x80, 0x90, 0xA0, 0xB0, 0xE0])
    (low : a < 0x80) (high : b < 0x80) (read : ofStatus? (base ||| c) a b = some m) :
    OnWire m [m.status, a, b] := by
  rw [channelBits_of_lt c channel] at status
  refine onWire_three ?_ low high ?_
  · rw [status]; exact (channel_length c channel).1 base known
  · rw [status]; exact read

theorem onWire_channel_two {m : Message} {base c a : UInt8} (channel : c < 16)
    (status : m.status = base ||| channelBits c) (known : base ∈ [0xC0, 0xD0])
    (data : a < 0x80) (read : ofStatus? (base ||| c) a 0 = some m) :
    OnWire m [m.status, a] := by
  rw [channelBits_of_lt c channel] at status
  refine onWire_two ?_ data ?_
  · rw [status]; exact (channel_length c channel).2 base known
  · rw [status]; exact read

/-- A well-formed message is read back from its bytes, which are a status byte and its data. -/
theorem WellFormed.onWire {m : Message} (wf : m.WellFormed) : OnWire m m.encode := by
  cases m with
  | noteOff c a b =>
    obtain ⟨channel, low, high⟩ := wf
    rw [encode, dataBits_of_lt a low, dataBits_of_lt b high]
    exact onWire_channel_three channel rfl (by decide) low high (channel_status c channel a b).1
  | noteOn c a b =>
    obtain ⟨channel, low, high⟩ := wf
    rw [encode, dataBits_of_lt a low, dataBits_of_lt b high]
    exact onWire_channel_three channel rfl (by decide) low high (channel_status c channel a b).2.1
  | aftertouch c a b =>
    obtain ⟨channel, low, high⟩ := wf
    rw [encode, dataBits_of_lt a low, dataBits_of_lt b high]
    exact onWire_channel_three channel rfl (by decide) low high (channel_status c channel a b).2.2.1
  | controlChange c a b =>
    obtain ⟨channel, low, high⟩ := wf
    rw [encode, dataBits_of_lt a low, dataBits_of_lt b high]
    exact onWire_channel_three channel rfl (by decide) low high
      (channel_status c channel a b).2.2.2.1
  | programChange c a =>
    obtain ⟨channel, data⟩ := wf
    rw [encode, dataBits_of_lt a data]
    exact onWire_channel_two channel rfl (by decide) data (channel_status c channel a 0).2.2.2.2.1
  | channelPressure c a =>
    obtain ⟨channel, data⟩ := wf
    rw [encode, dataBits_of_lt a data]
    exact onWire_channel_two channel rfl (by decide) data (channel_status c channel a 0).2.2.2.2.2.1
  | pitchBend c v =>
    obtain ⟨channel, fits⟩ := wf
    obtain ⟨low, high⟩ := Word14.split_lt v
    have read := (channel_status c channel (Word14.split v).1 (Word14.split v).2).2.2.2.2.2.2
    rw [Word14.join_split v fits] at read
    exact onWire_channel_three channel rfl (by decide) low high read
  | quarterFrame a =>
    rw [encode, dataBits_of_lt a wf]
    exact onWire_two rfl wf rfl
  | songPosition v =>
    obtain ⟨low, high⟩ := Word14.split_lt v
    refine onWire_three rfl low high ?_
    rw [show ofStatus? (songPosition v).status (Word14.split v).1 (Word14.split v).2 =
      some (songPosition (Word14.join (Word14.split v).1 (Word14.split v).2)) from rfl,
      Word14.join_split v wf]
  | songSelect a =>
    rw [encode, dataBits_of_lt a wf]
    exact onWire_two rfl wf rfl
  | tuneRequest => exact .tune
  | realtime k => exact .realtime k
  | sysEx x =>
    obtain ⟨delimited, data⟩ := wf
    obtain ⟨bytes, cut⟩ := x
    have shape := OnWire.run cut data
    rw [← delimited] at shape
    exact shape

/-! ### The message that bytes are -/

theorem two_cases (s : UInt8) (length : lengthOf s = .two) :
    s = 0xC0 ||| channelBits s ∨ s = 0xD0 ||| channelBits s ∨ s = 0xF1 ∨ s = 0xF3 := by
  revert s; exact forall_byte (by decide +kernel)

theorem three_cases (s : UInt8) (length : lengthOf s = .three) :
    s = 0x80 ||| channelBits s ∨ s = 0x90 ||| channelBits s ∨ s = 0xA0 ||| channelBits s ∨
      s = 0xB0 ||| channelBits s ∨ s = 0xE0 ||| channelBits s ∨ s = 0xF2 := by
  revert s; exact forall_byte (by decide +kernel)

/-- `m` is the well-formed message that a status byte and its data bytes spell. -/
def Spells (m : Message) (s : UInt8) (data : List UInt8) : Prop :=
  ofBytes? (s :: data) = some m ∧ m.WellFormed ∧ m.status = s ∧ m.encode = s :: data

theorem spells_channel {m : Message} {s base : UInt8} {data : List UInt8}
    (parts : s = base ||| channelBits s) (read : ofBytes? (s :: data) = some m) (wf : m.WellFormed)
    (status : m.status = base ||| channelBits (channelBits s))
    (bytes : m.encode = m.status :: data) : Spells m s data := by
  rw [channelBits_of_lt _ (channelBits_lt s), ← parts] at status
  rw [status] at bytes
  exact ⟨read, wf, status, bytes⟩

theorem exists_of_two {s a : UInt8} (length : lengthOf s = .two) (data : a < 0x80) :
    ∃ m, Spells m s [a] := by
  have read := channel_status (channelBits s) (channelBits_lt s) a 0
  have known := ofBytes?_two length data
  have fields : channelBits s < 16 ∧ a < 0x80 := ⟨channelBits_lt s, data⟩
  rcases two_cases s length with hs | hs | hs | hs
  · exact ⟨programChange (channelBits s) a, spells_channel hs
      (by rw [known, ← read.2.2.2.2.1, ← hs]) fields rfl (by rw [encode, dataBits_of_lt a data])⟩
  · exact ⟨channelPressure (channelBits s) a, spells_channel hs
      (by rw [known, ← read.2.2.2.2.2.1, ← hs]) fields rfl (by rw [encode, dataBits_of_lt a data])⟩
  · subst hs
    exact ⟨quarterFrame a, known, data, rfl, by rw [encode, dataBits_of_lt a data]; rfl⟩
  · subst hs
    exact ⟨songSelect a, known, data, rfl, by rw [encode, dataBits_of_lt a data]; rfl⟩

theorem exists_of_three {s a b : UInt8} (length : lengthOf s = .three) (low : a < 0x80)
    (high : b < 0x80) : ∃ m, Spells m s [a, b] := by
  have read := channel_status (channelBits s) (channelBits_lt s) a b
  have known := ofBytes?_three length low high
  have fields : channelBits s < 16 ∧ a < 0x80 ∧ b < 0x80 := ⟨channelBits_lt s, low, high⟩
  have same := Word14.split_join a b low high
  rcases three_cases s length with hs | hs | hs | hs | hs | hs
  · exact ⟨noteOff (channelBits s) a b, spells_channel hs (by rw [known, ← read.1, ← hs])
      fields rfl (by rw [encode, dataBits_of_lt a low, dataBits_of_lt b high])⟩
  · exact ⟨noteOn (channelBits s) a b, spells_channel hs (by rw [known, ← read.2.1, ← hs])
      fields rfl (by rw [encode, dataBits_of_lt a low, dataBits_of_lt b high])⟩
  · exact ⟨aftertouch (channelBits s) a b, spells_channel hs (by rw [known, ← read.2.2.1, ← hs])
      fields rfl (by rw [encode, dataBits_of_lt a low, dataBits_of_lt b high])⟩
  · exact ⟨controlChange (channelBits s) a b, spells_channel hs
      (by rw [known, ← read.2.2.2.1, ← hs]) fields rfl
      (by rw [encode, dataBits_of_lt a low, dataBits_of_lt b high])⟩
  · exact ⟨pitchBend (channelBits s) (Word14.join a b), spells_channel hs
      (by rw [known, ← read.2.2.2.2.2.2, ← hs]) ⟨fields.1, Word14.join_le a b low high⟩ rfl
      (by rw [encode, same])⟩
  · subst hs
    exact ⟨songPosition (Word14.join a b), known, Word14.join_le a b low high, rfl,
      by rw [encode, same]; rfl⟩

end Message

/-! ### Lists of messages -/

theorem map_clip_of_clean {ms : List Message} {limit : Nat} (clean : ∀ m ∈ ms, m.Clean limit) :
    ms.map (Message.clip limit) = ms := by
  rw [List.map_congr_left fun m member => (clean m member).clip, List.map_id']

/-- The messages that stand in line; realtime messages do not. -/
def withoutRealtime (ms : List Message) : List Message := ms.filter (!·.isRealtime)

@[simp] theorem withoutRealtime_append (ms more : List Message) :
    withoutRealtime (ms ++ more) = withoutRealtime ms ++ withoutRealtime more :=
  List.filter_append ..

end MidiPatch
