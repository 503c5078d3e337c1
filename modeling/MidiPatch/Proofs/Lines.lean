import MidiPatch.Proofs.Digits
import MidiPatch.Traffic

/-!
# Lines of traffic

A line without its style codes is the plain line, and the plain line tells when a message came and
which bytes it has, whatever the name of its port imitates.
-/

namespace MidiPatch

namespace Text

/-! ### Taking styles away -/

/-- The characters between the beginning and the end of a style code. -/
def isCodeMark (c : Char) : Bool := c.isDigit || c = ';'

/-- What follows a style code at the start of a text. -/
def afterCode? : List Char → Option (List Char)
  | '\x1b' :: '[' :: rest =>
    match rest.dropWhile isCodeMark with
    | 'm' :: after => some after
    | _ => none
  | _ => none

theorem afterCode?_shorter {cs after : List Char} (code : afterCode? cs = some after) :
    after.length < cs.length := by
  unfold afterCode? at code
  split at code
  · rename_i rest
    split at code
    · rename_i after' ends
      obtain rfl := Option.some.inj code
      have kept := List.IsSuffix.length_le (List.dropWhile_suffix isCodeMark (l := rest))
      rw [ends] at kept
      simp only [List.length_cons] at kept ⊢
      omega
    · exact nomatch code
  · exact nomatch code

/-- A text without the style codes in it. -/
def unstyled : List Char → List Char
  | [] => []
  | c :: rest =>
    match _ : afterCode? (c :: rest) with
    | some after => unstyled after
    | none => c :: unstyled rest
termination_by cs => cs.length
decreasing_by
  · exact afterCode?_shorter (by assumption)
  · simp

theorem unstyled_code {cs after : List Char} (code : afterCode? cs = some after) :
    unstyled cs = unstyled after := by
  cases cs with
  | nil => exact nomatch code
  | cons c rest =>
    rw [unstyled]
    split
    · rename_i after' code'
      rw [Option.some.inj (code'.symm.trans code)]
    · rename_i none
      exact absurd (none.symm.trans code) nofun

theorem unstyled_plain {c : Char} (plain : c ≠ '\x1b') (rest : List Char) :
    unstyled (c :: rest) = c :: unstyled rest := by
  have none : afterCode? (c :: rest) = none := by
    unfold afterCode?
    split
    · rename_i escape
      exact absurd (List.cons.inj escape).1 plain
    · rfl
  rw [unstyled]
  split
  · rename_i after code
    exact absurd (none.symm.trans code) nofun
  · rfl

theorem unstyled_append {cs : List Char} (plain : '\x1b' ∉ cs) (rest : List Char) :
    unstyled (cs ++ rest) = cs ++ unstyled rest := by
  induction cs with
  | nil => rfl
  | cons c cs ih =>
    rw [List.mem_cons, not_or] at plain
    rw [List.cons_append, unstyled_plain (Ne.symm plain.1), ih plain.2]
    rfl

theorem unstyled_styleCode {code : String} (marks : code.toList.all isCodeMark = true)
    (rest : List Char) : unstyled (styleCode code ++ rest) = unstyled rest := by
  apply unstyled_code
  have shape : styleCode code ++ rest = '\x1b' :: '[' :: (code.toList ++ 'm' :: rest) := by
    simp [styleCode]
  have ends : (code.toList ++ 'm' :: rest).dropWhile isCodeMark = 'm' :: rest := by
    rw [List.dropWhile_append_of_pos (List.all_eq_true.mp marks)]
    rfl
  rw [shape, afterCode?, ends]
  rfl

theorem codes_are_marks (s : Style) : ∀ code ∈ s.codes, code.toList.all isCodeMark = true := by
  cases s <;> decide

theorem unstyled_start (s : Style) (rest : List Char) :
    unstyled (s.start ++ rest) = unstyled rest := by
  have each := codes_are_marks s
  rw [Style.start]
  generalize s.codes = codes at each
  induction codes with
  | nil => rfl
  | cons code codes ih =>
    obtain ⟨first, others⟩ := List.forall_mem_cons.mp each
    rw [List.flatMap_cons, List.append_assoc, unstyled_styleCode first, ih others]

theorem unstyled_styleEnd (rest : List Char) : unstyled (styleEnd ++ rest) = unstyled rest :=
  unstyled_code rfl

/-! ### Painted texts -/

theorem restyle_plain (start : List Char) {cs : List Char} (plain : '\x1b' ∉ cs) :
    restyle start cs = cs := by
  induction cs with
  | nil => rfl
  | cons c cs ih =>
    rw [List.mem_cons, not_or] at plain
    unfold restyle
    split
    · rename_i empty
      exact nomatch empty
    · rename_i escape
      exact absurd (List.cons.inj escape).1.symm plain.1
    · rename_i same
      obtain ⟨rfl, rfl⟩ := List.cons.inj same
      rw [ih plain.2]

theorem rightpad_plain {cs : List Char} (width : Nat) (plain : '\x1b' ∉ cs) :
    '\x1b' ∉ cs.rightpad width ' ' := by
  simp [List.rightpad, plain, List.mem_replicate]

theorem paintWide_plain (style : Style) (width : Nat) (s : String) :
    (paintWide false style width s).toList = s.toList.rightpad width ' ' := by
  simp [paintWide]

theorem unstyled_paintWide {s : String} (plain : '\x1b' ∉ s.toList) (style : Style) (width : Nat)
    (rest : List Char) :
    unstyled ((paintWide true style width s).toList ++ rest) =
      (paintWide false style width s).toList ++ unstyled rest := by
  rw [paintWide_plain, paintWide, String.toList_ofList, Bool.true_and]
  split
  · rw [restyle_plain style.start plain, List.append_assoc, List.append_assoc, unstyled_start,
      unstyled_append (rightpad_plain width plain), unstyled_styleEnd]
  · exact unstyled_append (rightpad_plain width plain) rest

theorem paint_plain (style : Style) (s : String) : paint false style s = s := by
  rw [← String.toList_inj, paint, paintWide_plain]
  simp [List.rightpad]

theorem unstyled_paint {s : String} (plain : '\x1b' ∉ s.toList) (style : Style)
    (rest : List Char) :
    unstyled ((paint true style s).toList ++ rest) = s.toList ++ unstyled rest := by
  rw [paint, unstyled_paintWide plain, ← paint, paint_plain]

end Text

/-! ### What a line is made of -/

theorem toDigits_plain (n : Nat) : '\x1b' ∉ Nat.toDigits 10 n := by
  intro member
  exact nomatch Nat.isDigit_of_mem_toDigits (by decide) (by decide) member

theorem Realtime.text_plain (k : Realtime) : '\x1b' ∉ k.text.toList := by
  rw [text.eq_def]
  split <;> simp

theorem SysEx.text_plain (x : SysEx) : '\x1b' ∉ x.text.toList := by
  have literal : ∀ s : String, toString s = s := fun _ => rfl
  rw [text.eq_def]
  split <;> simp [literal, toDigits_plain]

theorem Message.text_plain (m : Message) : '\x1b' ∉ m.text.toList := by
  have literal : ∀ s : String, toString s = s := fun _ => rfl
  -- The equations that `simp` would make for each constructor take too long.
  rw [text.eq_def]
  cases m with
  | realtime k => exact k.text_plain
  | sysEx x => exact x.text_plain
  | _ => simp [literal, toDigits_plain]

namespace Wire

theorem hexDigit_alphanum : ∀ n < 16, (hexDigit n).isAlphanum = true := by decide

theorem hexText_singleton (b : UInt8) :
    (hexText [b]).toList = [hexDigit (b.toNat / 16), hexDigit (b.toNat % 16)] := by
  simp [hexText, hexPair]

theorem hexText_cons_cons (b c : UInt8) (rest : List UInt8) :
    (hexText (b :: c :: rest)).toList =
      hexDigit (b.toNat / 16) :: hexDigit (b.toNat % 16) :: ' ' ::
        (hexText (c :: rest)).toList := by
  simp [hexText, hexPair, String.toList_intercalate]

theorem hexText_alphanum {bytes : List UInt8} {c : Char} (member : c ∈ (hexText bytes).toList) :
    c.isAlphanum = true ∨ c = ' ' := by
  have pair : ∀ b : UInt8, (hexDigit (b.toNat / 16)).isAlphanum = true ∧
      (hexDigit (b.toNat % 16)).isAlphanum = true := by
    intro b
    have bound := b.toNat_lt
    exact ⟨hexDigit_alphanum _ (by omega), hexDigit_alphanum _ (by omega)⟩
  induction bytes with
  | nil => exact nomatch member
  | cons b rest ih =>
    obtain ⟨high, low⟩ := pair b
    cases rest with
    | nil =>
      rw [hexText_singleton] at member
      rcases List.mem_cons.mp member with rfl | member
      · exact .inl high
      · rw [List.mem_singleton.mp member]
        exact .inl low
    | cons d rest =>
      rw [hexText_cons_cons] at member
      rcases List.mem_cons.mp member with rfl | member
      · exact .inl high
      rcases List.mem_cons.mp member with rfl | member
      · exact .inl low
      rcases List.mem_cons.mp member with rfl | member
      · exact .inr rfl
      · exact ih member

/-- The byte that two digits stand for. -/
theorem hexDigit_injective : ∀ m < 16, ∀ n < 16, hexDigit m = hexDigit n → m = n := by
  decide +kernel

theorem byte_of_digits {b c : UInt8} (high : hexDigit (b.toNat / 16) = hexDigit (c.toNat / 16))
    (low : hexDigit (b.toNat % 16) = hexDigit (c.toNat % 16)) : b = c := by
  have bound := b.toNat_lt
  have bound' := c.toNat_lt
  have same := hexDigit_injective _ (by omega) _ (by omega) high
  have same' := hexDigit_injective _ (by omega) _ (by omega) low
  exact UInt8.toNat_inj.mp (by omega)

theorem hexText_injective : Function.Injective hexText := by
  intro bytes bytes' same
  replace same := congrArg String.toList same
  induction bytes generalizing bytes' with
  | nil =>
    rcases bytes' with _ | ⟨c, _ | ⟨d, rest'⟩⟩
    · rfl
    · rw [hexText_singleton] at same; exact nomatch same
    · rw [hexText_cons_cons] at same; exact nomatch same
  | cons b rest ih =>
    rcases rest with _ | ⟨a, rest⟩
    · rcases bytes' with _ | ⟨c, _ | ⟨d, rest'⟩⟩
      · rw [hexText_singleton] at same; exact nomatch same
      · rw [hexText_singleton, hexText_singleton] at same
        obtain ⟨high, same⟩ := List.cons.inj same
        rw [byte_of_digits high (List.cons.inj same).1]
      · rw [hexText_singleton, hexText_cons_cons] at same; simp at same
    · rcases bytes' with _ | ⟨c, _ | ⟨d, rest'⟩⟩
      · rw [hexText_cons_cons] at same; exact nomatch same
      · rw [hexText_singleton, hexText_cons_cons] at same; simp at same
      · rw [hexText_cons_cons, hexText_cons_cons] at same
        obtain ⟨high, same⟩ := List.cons.inj same
        obtain ⟨low, same⟩ := List.cons.inj same
        rw [byte_of_digits high low, ih (List.cons.inj same).2]

end Wire

/-! ### Lines -/

/-- A text up to the first `a` is told by the whole. -/
theorem eq_of_append_cons {α : Type} {a : α} {xs ys rest rest' : List α} (none : a ∉ xs)
    (none' : a ∉ ys) (same : xs ++ a :: rest = ys ++ a :: rest') : xs = ys ∧ rest = rest' := by
  induction xs generalizing ys with
  | nil =>
    cases ys with
    | nil => exact ⟨rfl, (List.cons.inj same).2⟩
    | cons y ys => exact absurd (List.cons.inj same).1 (List.ne_of_not_mem_cons none')
  | cons x xs ih =>
    cases ys with
    | nil => exact absurd (List.cons.inj same).1.symm (List.ne_of_not_mem_cons none)
    | cons y ys =>
      obtain ⟨rfl, tails⟩ := List.cons.inj same
      rw [List.mem_cons, not_or] at none none'
      obtain ⟨rfl, rests⟩ := ih none.2 none'.2 tails
      exact ⟨rfl, rests⟩

namespace Traffic

open Text

theorem eightDigits_toList (n : Nat) :
    (eightDigits n).toList =
      List.replicate (8 - (toString n).length) '0' ++ Nat.toDigits 10 n := by
  rw [eightDigits, String.toList_ofList, List.leftpad, String.length_toList]
  exact congrArg _ Nat.toList_repr

theorem isDigit_of_mem_eightDigits {n : Nat} {c : Char} (member : c ∈ (eightDigits n).toList) :
    c.isDigit = true := by
  rw [eightDigits_toList] at member
  rcases List.mem_append.mp member with zero | digit
  · rw [(List.mem_replicate.mp zero).2]; rfl
  · exact Nat.isDigit_of_mem_toDigits (by decide) (by decide) digit

theorem eightDigits_injective : Function.Injective eightDigits := by
  intro m n same
  have read := Yaml.Plain.digits?_padded (8 - (toString m).length) m
  have read' := Yaml.Plain.digits?_padded (8 - (toString n).length) n
  rw [← eightDigits_toList] at read read'
  rw [same] at read
  exact Option.some.inj (read.symm.trans read')

/-- The column of a line that shows the port. -/
def column (name : String) : String := paintWide false .white portWidth (shortened name)

theorem length_cut {name : String} (long : 20 < name.length) :
    (name.toList.take 17 ++ ['.', '.', '.']).length = 20 := by
  rw [List.length_append, List.length_take_of_le (by rw [String.length_toList]; omega)]
  rfl

/-- A name is shown whole and filled up, or cut where three dots still find room. -/
theorem column_toList (name : String) :
    (column name).toList =
      if name.length ≤ 20 then name.toList.rightpad 20 ' '
      else name.toList.take 17 ++ ['.', '.', '.'] := by
  rw [column, paintWide_plain, shortened, portWidth]
  split
  · rename_i long
    rw [if_neg (Nat.not_le.mpr long), String.toList_append, String.toList_ofList]
    change (name.toList.take 17 ++ ['.', '.', '.']).rightpad 20 ' ' = _
    rw [List.rightpad, length_cut long, Nat.sub_self, List.replicate_zero, List.append_nil]
  · rename_i short
    rw [if_pos (Nat.not_lt.mp short)]

theorem length_column (name : String) : (column name).length = 20 := by
  rw [← String.length_toList, column_toList]
  split
  · rename_i short
    rw [List.length_rightpad, String.length_toList]
    exact Nat.max_eq_left short
  · rename_i long
    exact length_cut (Nat.not_le.mp long)

theorem line_plain (e : Event) :
    line false e = "[" ++ eightDigits e.time ++ "ms] " ++ column e.port ++ " | " ++
      Wire.hexText e.message.encode ++ " => " ++ e.message.text := by
  simp only [line, lineAt, paint_plain, column]

theorem shortened_plain {name : String} (plain : '\x1b' ∉ name.toList) :
    '\x1b' ∉ (shortened name).toList := by
  rw [shortened]
  split
  · rw [String.toList_append, String.toList_ofList, List.mem_append, not_or]
    exact ⟨fun member => plain (List.mem_of_mem_take member), by simp⟩
  · exact plain

theorem eightDigits_plain (n : Nat) : '\x1b' ∉ (eightDigits n).toList :=
  fun member => nomatch isDigit_of_mem_eightDigits member

theorem unstyled_line {e : Event} (plain : '\x1b' ∉ e.port.toList) :
    unstyled (line true e).toList = (line false e).toList := by
  have hex : '\x1b' ∉ (Wire.hexText e.message.encode).toList := by
    intro member
    rcases Wire.hexText_alphanum member with h | h
    · exact nomatch h
    · exact nomatch h
  have port := shortened_plain plain
  rw [line_plain, line, lineAt]
  simp only [String.toList_append, List.append_assoc]
  rw [unstyled_append (by simp), unstyled_paint (eightDigits_plain e.time),
    unstyled_append (by simp), unstyled_paintWide port, unstyled_append (by simp),
    unstyled_paint hex, unstyled_append (by simp)]
  have last := unstyled_paint e.message.text_plain .brightBlue []
  rw [List.append_nil] at last
  rw [last, unstyled, List.append_nil, column]

theorem eq_of_line {e e' : Event} (same : line false e = line false e') :
    e.time = e'.time ∧ e.message.encode = e'.message.encode := by
  replace same := congrArg String.toList same
  rw [line_plain, line_plain] at same
  simp only [String.toList_append, List.append_assoc] at same
  -- The time ends at the first letter, the bytes end at the first sign of equality.
  have no_letter : ∀ n, 'm' ∉ (eightDigits n).toList :=
    fun n member => nomatch isDigit_of_mem_eightDigits member
  have no_sign : ∀ bytes, '=' ∉ (Wire.hexText bytes).toList ++ [' '] := by
    intro bytes member
    rcases List.mem_append.mp member with digit | blank
    · rcases Wire.hexText_alphanum digit with h | h
      · exact nomatch h
      · exact nomatch h
    · exact nomatch List.mem_singleton.mp blank
  obtain ⟨time, same⟩ := eq_of_append_cons (no_letter e.time) (no_letter e'.time)
    (List.append_cancel_left same)
  have columns : (column e.port).toList.length = (column e'.port).toList.length := by
    rw [String.length_toList, String.length_toList, length_column, length_column]
  have behind := List.append_cancel_left
    (List.append_inj (@List.append_cancel_left _ ['s', ']', ' '] _ _ same) columns).2
  have cut : ∀ (m : Message) (bytes : List UInt8),
      (Wire.hexText bytes).toList ++ (" => ".toList ++ m.text.toList) =
        ((Wire.hexText bytes).toList ++ [' ']) ++ '=' :: '>' :: ' ' :: m.text.toList := by
    intro m bytes
    simp
  rw [cut, cut] at behind
  have shown := (eq_of_append_cons (no_sign _) (no_sign _) behind).1
  exact ⟨eightDigits_injective (String.toList_inj.mp time),
    Wire.hexText_injective (String.toList_inj.mp (List.append_cancel_right shown))⟩

/--
A line without its style codes is the plain line. In a plain line the port takes twenty characters,
which are its name, filled up or cut, and lines that are equal were given for equal times and bytes,
whatever the names of the ports are.
-/
theorem line_tells_time_and_bytes (e e' : Event) :
    ('\x1b' ∉ e.port.toList → unstyled (line true e).toList = (line false e).toList) ∧
      line false e = "[" ++ eightDigits e.time ++ "ms] " ++ column e.port ++ " | " ++
        Wire.hexText e.message.encode ++ " => " ++ e.message.text ∧
      (column e.port).length = 20 ∧
      (column e.port).toList =
        (if e.port.length ≤ 20 then e.port.toList.rightpad 20 ' '
        else e.port.toList.take 17 ++ ['.', '.', '.']) ∧
      (line false e = line false e' →
        e.time = e'.time ∧ e.message.encode = e'.message.encode) :=
  ⟨unstyled_line, line_plain e, length_column e.port, column_toList e.port, eq_of_line⟩

/-- Names that differ behind their first seventeen characters are shown alike. -/
theorem line_tells_time_and_bytes_of_long_names :
    let e : Event :=
      { time := 123456789, port := "Keyboard Number 1 | F8 => Clock", message := .noteOn 9 64 100 }
    let e' : Event := { e with port := "Keyboard Number 1 (left hand)" }
    '\x1b' ∉ e.port.toList ∧ line false e = line false e' ∧
      unstyled (line true e).toList = (line false e).toList ∧ (column e.port).length = 20 ∧
      (column e.port).toList = "Keyboard Number 1...".toList ∧
      e.time = e'.time ∧ e.message.encode = e'.message.encode := by
  intro e e'
  have plain : '\x1b' ∉ e.port.toList := by simp [e]
  have alike : shortened e.port = shortened e'.port := by decide +kernel
  have same : line false e = line false e' := by
    rw [line_plain, line_plain, column, column, alike]
  obtain ⟨unstyles, -, width, shows, tells⟩ := line_tells_time_and_bytes e e'
  exact ⟨plain, same, unstyles plain, width, shows.trans (by decide +kernel), tells same⟩

end Traffic

end MidiPatch
