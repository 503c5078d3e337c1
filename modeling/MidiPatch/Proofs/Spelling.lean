import MidiPatch.Proofs.WellFormed

/-!
# How messages are spelled

The bytes of a message are read back as that message, each field cut to the bits it has on the wire,
whatever stands behind them. No shorter beginning of them is read as a message.
-/

namespace MidiPatch

open Wire

namespace Wire

theorem dataBits_dataBits (b : UInt8) : dataBits (dataBits b) = dataBits b :=
  dataBits_of_lt _ (dataBits_lt b)

theorem channelBits_channelBits (c : UInt8) : channelBits (channelBits c) = channelBits c :=
  channelBits_of_lt _ (channelBits_lt c)

namespace Word14

theorem toNat_and_largest (v : UInt16) : (v &&& largest).toNat = v.toNat % 16384 := by
  rw [UInt16.toNat_and]
  exact Nat.and_two_pow_sub_one_eq_mod v.toNat 14

theorem and_largest_le (v : UInt16) : v &&& largest ≤ largest := by
  rw [UInt16.le_iff_toNat_le, toNat_and_largest]
  change v.toNat % 16384 ≤ 16383
  omega

theorem split_and_largest (v : UInt16) : split (v &&& largest) = split v := by
  rw [split_eq, split_eq, toNat_and_largest]
  have low : v.toNat % 16384 % 128 = v.toNat % 128 := by omega
  have high : v.toNat % 16384 / 128 % 128 = v.toNat / 128 % 128 := by omega
  rw [low, high]

end Word14

end Wire

/-- Both delimiters, and no end byte between them. -/
def SysEx.Closed (x : SysEx) : Prop :=
  x.data = sysExBegin :: x.payload ++ [sysExEnd] ∧ sysExEnd ∉ x.payload

instance : DecidablePred SysEx.Closed := fun x =>
  inferInstanceAs (Decidable (x.data = sysExBegin :: x.payload ++ [sysExEnd] ∧ _))

namespace Message

/-- A run is whole; the fields of other messages may have any value. -/
def Closed : Message → Prop
  | sysEx x => x.Closed ∧ x.truncated = false
  | _ => True

/-- A message with each field cut to the bits it has on the wire. -/
def narrowed : Message → Message
  | noteOff c a b => noteOff (channelBits c) (dataBits a) (dataBits b)
  | noteOn c a b => noteOn (channelBits c) (dataBits a) (dataBits b)
  | aftertouch c a b => aftertouch (channelBits c) (dataBits a) (dataBits b)
  | controlChange c a b => controlChange (channelBits c) (dataBits a) (dataBits b)
  | programChange c a => programChange (channelBits c) (dataBits a)
  | channelPressure c a => channelPressure (channelBits c) (dataBits a)
  | pitchBend c v => pitchBend (channelBits c) (v &&& Word14.largest)
  | quarterFrame a => quarterFrame (dataBits a)
  | songPosition v => songPosition (v &&& Word14.largest)
  | songSelect a => songSelect (dataBits a)
  | tuneRequest => tuneRequest
  | realtime k => realtime k
  | sysEx x => sysEx x

example : narrowed (noteOn 0x31 0xBC 0xFF) = noteOn 1 0x3C 0x7F := by decide

theorem status_narrowed (m : Message) : m.narrowed.status = m.status := by
  cases m <;> simp [narrowed, status, channelBits_channelBits]

theorem encode_narrowed (m : Message) : m.narrowed.encode = m.encode := by
  have same := m.status_narrowed
  cases m <;> simp_all [narrowed, encode, dataBits_dataBits, Word14.split_and_largest]

theorem wellFormed_narrowed {m : Message} (fixed : ∀ x, m ≠ sysEx x) : m.narrowed.WellFormed := by
  cases m with
  | noteOff c a b | noteOn c a b | aftertouch c a b | controlChange c a b =>
    exact ⟨channelBits_lt c, dataBits_lt a, dataBits_lt b⟩
  | programChange c a | channelPressure c a => exact ⟨channelBits_lt c, dataBits_lt a⟩
  | pitchBend c v => exact ⟨channelBits_lt c, Word14.and_largest_le v⟩
  | quarterFrame a | songSelect a => exact dataBits_lt a
  | songPosition v => exact Word14.and_largest_le v
  | tuneRequest | realtime k => trivial
  | sysEx x => exact absurd rfl (fixed x)

/-! ### The bytes that reading takes -/

theorem takeWhile_ended {body rest : List UInt8} (open_ : sysExEnd ∉ body) :
    (body ++ sysExEnd :: rest).takeWhile (· ≠ sysExEnd) = body := by
  rw [List.takeWhile_append_of_pos, List.takeWhile_cons_of_neg (by simp), List.append_nil]
  intro b member
  simp only [ne_eq, decide_not, Bool.not_eq_true', decide_eq_false_iff_not]
  rintro rfl
  exact open_ member

theorem ofBytes?_run {body : List UInt8} (open_ : sysExEnd ∉ body) (rest : List UInt8) :
    ofBytes? (sysExBegin :: body ++ sysExEnd :: rest) =
      some (sysEx { data := sysExBegin :: body ++ [sysExEnd] }) := by
  have ended : sysExEnd ∈ body ++ sysExEnd :: rest := by simp
  calc ofBytes? (sysExBegin :: body ++ sysExEnd :: rest)
      = if sysExEnd ∈ body ++ sysExEnd :: rest then
          some (sysEx { data := sysExBegin ::
            (body ++ sysExEnd :: rest).takeWhile (· ≠ sysExEnd) ++ [sysExEnd] })
        else none := rfl
    _ = some (sysEx { data := sysExBegin :: body ++ [sysExEnd] }) := by
        rw [if_pos ended, takeWhile_ended open_]

theorem ofBytes?_unread {s : UInt8} {rest : List UInt8} (low : s < 0xF8) (plain : s ≠ sysExBegin)
    (short : ∀ n ∈ (lengthOf s).bytes?, rest.length + 1 < n) : ofBytes? (s :: rest) = none := by
  have other := Realtime.ofByte?_of_lt s low
  cases length : (lengthOf s).bytes? with
  | none => simp [ofBytes?, other, plain, length]
  | some n => simp [ofBytes?, other, plain, length, short n length]

/-- A message of two bytes has no second data byte to look at. -/
theorem ofStatus?_two {s : UInt8} (length : lengthOf s = .two) (a b b' : UInt8) :
    ofStatus? s a b = ofStatus? s a b' := by
  rcases two_cases s length with parts | parts | rfl | rfl
  · have read := channel_status (channelBits s) (channelBits_lt s)
    rw [parts, (read a b).2.2.2.2.1, (read a b').2.2.2.2.1]
  · have read := channel_status (channelBits s) (channelBits_lt s)
    rw [parts, (read a b).2.2.2.2.2.1, (read a b').2.2.2.2.2.1]
  · rfl
  · rfl

theorem ofBytes?_two_append {s : UInt8} (length : lengthOf s = .two) (a : UInt8)
    (rest : List UInt8) : ofBytes? (s :: a :: rest) = ofBytes? [s, dataBits a] := by
  have other := Realtime.ofByte?_of_lt s (status_of_two s length).2
  have plain := (open_of_two s length).2.2
  rw [ofBytes?_two length (dataBits_lt a)]
  simpa [ofBytes?, other, plain, length, Length.bytes?] using ofStatus?_two length ..

theorem ofBytes?_three_append {s : UInt8} (length : lengthOf s = .three) (a b : UInt8)
    (rest : List UInt8) :
    ofBytes? (s :: a :: b :: rest) = ofBytes? [s, dataBits a, dataBits b] := by
  have other := Realtime.ofByte?_of_lt s (status_of_three s length).2
  have plain := (open_of_three s length).2.2
  rw [ofBytes?_three length (dataBits_lt a) (dataBits_lt b)]
  simp [ofBytes?, other, plain, length, Length.bytes?]

theorem Spells.fixed {m : Message} {s : UInt8} {data : List UInt8} (spells : m.Spells s data)
    (length : lengthOf s ≠ .undefined) : ∀ x, m ≠ sysEx x := by
  rintro x rfl
  exact length (by rw [← spells.2.2.1]; rfl)

/-- A message of fixed length is read with its fields in range, and a run as it stands. -/
theorem spelled_of_read {bytes : List UInt8} {m : Message} (read : ofBytes? bytes = some m) :
    (∃ used rest, bytes = used ++ rest ∧ used.length = m.encode.length ∧
      ∀ more, ofBytes? (used ++ more) = some m) ∧
      (m.WellFormed ∧ (∀ x, m ≠ sysEx x) ∨
        ∃ body, m = sysEx { data := sysExBegin :: body ++ [sysExEnd] }) := by
  cases bytes with
  | nil => cases read
  | cons s rest =>
  cases byteClass s with
  | data low =>
    rw [ofBytes?_unread (lt_realtime_of_data low) (by rintro rfl; simp [sysExBegin] at low)
      (by simp [length_of_data low, Length.bytes?])] at read
    cases read
  | two length =>
    cases rest with
    | nil =>
      rw [ofBytes?_unread (status_of_two s length).2 (open_of_two s length).2.2
        (by simp [length, Length.bytes?])] at read
      cases read
    | cons a rest =>
      obtain ⟨m', spells⟩ := exists_of_two length (dataBits_lt a)
      have fixed := spells.fixed (by simp [length])
      obtain ⟨spelled, wf, -, bytes⟩ := spells
      rw [ofBytes?_two_append length, spelled] at read
      cases read
      refine ⟨⟨[s, a], rest, rfl, by simp [bytes], fun more => ?_⟩, .inl ⟨wf, fixed⟩⟩
      exact (ofBytes?_two_append length a more).trans spelled
  | three length =>
    have unread : rest.length < 2 → ofBytes? (s :: rest) = none := fun short =>
      ofBytes?_unread (status_of_three s length).2 (open_of_three s length).2.2
        (by simp [length, Length.bytes?]; omega)
    rcases rest with - | ⟨a, - | ⟨b, rest⟩⟩
    · cases (unread Nat.two_pos).symm.trans read
    · cases (unread Nat.one_lt_two).symm.trans read
    · obtain ⟨m', spells⟩ := exists_of_three length (dataBits_lt a) (dataBits_lt b)
      have fixed := spells.fixed (by simp [length])
      obtain ⟨spelled, wf, -, bytes⟩ := spells
      rw [ofBytes?_three_append length, spelled] at read
      cases read
      refine ⟨⟨[s, a, b], rest, rfl, by simp [bytes], fun more => ?_⟩, .inl ⟨wf, fixed⟩⟩
      exact (ofBytes?_three_append length a b more).trans spelled
  | tune =>
    cases read.symm.trans (show ofBytes? (Wire.tuneRequest :: rest) = some tuneRequest from rfl)
    exact ⟨⟨[Wire.tuneRequest], rest, rfl, rfl, fun more => rfl⟩, .inl ⟨trivial, by rintro _ ⟨⟩⟩⟩
  | opens =>
    by_cases ended : sysExEnd ∈ rest
    · obtain ⟨body, more, rfl, open_⟩ := List.eq_append_cons_of_mem ended
      cases read.symm.trans (ofBytes?_run open_ more)
      refine ⟨⟨sysExBegin :: body ++ [sysExEnd], more, by simp, rfl, fun more => ?_⟩,
        .inr ⟨body, rfl⟩⟩
      simpa using ofBytes?_run open_ more
    · have unread : ofBytes? (sysExBegin :: rest) = none := if_neg ended
      rw [unread] at read
      cases read
  | closes => cases read
  | undefined unused =>
    rcases unused with rfl | rfl <;> cases read
  | realtime k =>
    cases read.symm.trans (show ofBytes? (k.byte :: rest) = some (realtime k) by cases k <;> rfl)
    exact ⟨⟨[k.byte], rest, rfl, rfl, fun more => by cases k <;> rfl⟩,
      .inl ⟨trivial, by rintro _ ⟨⟩⟩⟩

/-- Reading takes as many bytes as the message has, and looks at nothing behind them. -/
theorem exists_of_read {bytes : List UInt8} {m : Message} (read : ofBytes? bytes = some m) :
    ∃ used rest, bytes = used ++ rest ∧ used.length = m.encode.length ∧
      ∀ more, ofBytes? (used ++ more) = some m :=
  (spelled_of_read read).1

/-! ### Spelling -/

theorem OnWire.read {m : Message} {bytes : List UInt8} (shape : OnWire m bytes)
    (fixed : ∀ x, m ≠ sysEx x) : ofBytes? bytes = some m := by
  cases shape with
  | realtime k => cases k <;> rfl
  | tune => rfl
  | two status length data read => exact read
  | three status length low high read => exact read
  | run => exact absurd rfl (fixed _)

theorem ofBytes?_encode (m : Message) (closed : m.Closed) :
    ofBytes? m.encode = some m.narrowed := by
  cases m with
  | sysEx x =>
    obtain ⟨⟨delimited, open_⟩, whole⟩ := closed
    obtain ⟨data, truncated⟩ := x
    cases whole
    have read := ofBytes?_run open_ []
    rw [← delimited] at read
    exact read
  | _ =>
    rw [← encode_narrowed]
    exact (wellFormed_narrowed (by simp)).onWire.read (by simp [narrowed])

theorem head?_encode (m : Message) (closed : m.Closed) : m.encode.head? = some m.status := by
  cases m with
  | sysEx x =>
    rw [encode, closed.1.1]
    rfl
  | _ => rfl

theorem wireLength_of_fixed {m : Message} (fixed : ∀ x, m ≠ sysEx x) :
    m.wireLength = m.encode.length := by
  have length := m.length_encode fixed
  cases m with
  | sysEx x => exact absurd rfl (fixed x)
  | _ => simp only [wireLength, length, Option.getD_some]

theorem length_encode_eq_wireLength (m : Message) : m.encode.length = m.wireLength := by
  cases m with
  | sysEx x => rfl
  | _ => exact (wireLength_of_fixed (by simp)).symm

theorem spelling_exact (m : Message) (closed : m.Closed) :
    (∀ rest, ofBytes? (m.encode ++ rest) = some m.narrowed) ∧
      (∀ bytes, bytes <+: m.encode → bytes ≠ m.encode → ofBytes? bytes = none) ∧
      m.narrowed.encode = m.encode ∧ m.encode.head? = some m.status ∧
      m.encode.length = m.wireLength := by
  have read := m.ofBytes?_encode closed
  refine ⟨?behind, ?before, m.encode_narrowed, m.head?_encode closed,
    m.length_encode_eq_wireLength⟩
  case behind =>
    obtain ⟨used, rest, parts, length, behind⟩ := exists_of_read read
    rw [encode_narrowed] at length
    have all : rest = [] := by
      have total := congrArg List.length parts
      rw [List.length_append, length] at total
      exact List.eq_nil_of_length_eq_zero (by omega)
    rw [all, List.append_nil] at parts
    rw [parts]
    exact behind
  case before =>
    rintro bytes ⟨missing, parts⟩ short
    cases found : ofBytes? bytes with
    | none => rfl
    | some m' =>
      obtain ⟨used, rest, rfl, length, behind⟩ := exists_of_read found
      have same : m' = m.narrowed := by
        have again := behind (rest ++ missing)
        rw [← List.append_assoc, parts, read] at again
        exact (Option.some.inj again).symm
      have total := congrArg List.length parts
      rw [same, encode_narrowed] at length
      simp only [List.length_append, length] at total
      have none : missing = [] := List.eq_nil_of_length_eq_zero (by omega)
      rw [none, List.append_nil] at parts
      exact absurd parts short

/-- Status bytes in a run are part of it, and a second end byte behind it is not. -/
theorem spelling_exact_status_inside :
    Closed (sysEx { data := [0xF0, 0x90, 0xF8, 0xF0, 0xF7] }) ∧
      ofBytes? [0xF0, 0x90, 0xF8, 0xF0, 0xF7, 0xF7, 0x40] =
        some (sysEx { data := [0xF0, 0x90, 0xF8, 0xF0, 0xF7] }) ∧
      ofBytes? [0xF0, 0x90, 0xF8, 0xF0] = none := by
  have closed : Closed (sysEx { data := [0xF0, 0x90, 0xF8, 0xF0, 0xF7] }) :=
    ⟨by decide, rfl⟩
  obtain ⟨behind, before, -⟩ := spelling_exact _ closed
  exact ⟨closed, behind [0xF7, 0x40], before _ ⟨[0xF7], rfl⟩ (by decide)⟩

end Message

end MidiPatch
