import Mathlib
import MidiPatch.Host

/-!
# Small letters in their context

A part of a text turns into the same small letters as it does alone, but for capital sigmas whose
form is decided outside of the part. Those are the patterns that a name of a port may hold and still
not be found by.
-/

namespace MidiPatch

namespace Text

theorem occursIn_iff (part cs : List Char) : occursIn part cs = true ↔ part <:+: cs := by
  induction cs with
  | nil => rw [occursIn, List.isEmpty_iff, List.infix_nil]
  | cons c rest ih =>
    rw [occursIn, Bool.or_eq_true, List.isPrefixOf_iff_prefix, ih, List.infix_cons_iff]

/-! ### The form of a capital sigma -/

/-- Whether a capital sigma with these neighbours stands at the end of a word. -/
def endsWord (before after : List Char) : Bool := beginsCased before && !beginsCased after

def sigma (before after : List Char) : Char := if endsWord before after then 'ς' else 'σ'

theorem smallLetters_sigma (before after : List Char) :
    smallLetters before 'Σ' after = [sigma before after] := by
  rw [smallLetters, if_pos rfl, sigma, endsWord]
  split <;> rfl

/-- No other character looks at its neighbours. -/
theorem smallLetters_plain {c : Char} (plain : c ≠ 'Σ') (before after before' after' : List Char) :
    smallLetters before c after = smallLetters before' c after' := by
  simp only [smallLetters, plain, if_false]

theorem beginsCased_cons (c : Char) (cs : List Char) :
    beginsCased (c :: cs) = if isIgnorable c then beginsCased cs else isCased c := by
  unfold beginsCased
  rw [List.dropWhile_cons]
  split
  · rfl
  · rfl

/-- The near characters decide, unless all of them are passed over. -/
theorem beginsCased_append (near far : List Char) :
    beginsCased (near ++ far) =
      if near.all isIgnorable then beginsCased far else beginsCased near := by
  induction near with
  | nil => rfl
  | cons c near ih =>
    rw [List.cons_append, beginsCased_cons, beginsCased_cons, List.all_cons, ih]
    cases isIgnorable c with
    | false => rfl
    | true => rfl

theorem beginsCased_ignorable {near : List Char} (ignorable : near.all isIgnorable = true) :
    beginsCased near = false := by
  have same := beginsCased_append near []
  rw [List.append_nil, if_pos ignorable] at same
  exact same

/-! ### Small letters between neighbours -/

/-- The small letters of characters between those before them and those after them. -/
def lowercaseBetween : List Char → List Char → List Char → List Char
  | _, [], _ => []
  | before, c :: rest, after =>
    smallLetters before c (rest ++ after) ++ lowercaseBetween (c :: before) rest after

theorem lowercaseBetween_append (before xs ys after : List Char) :
    lowercaseBetween before (xs ++ ys) after =
      lowercaseBetween before xs (ys ++ after) ++
        lowercaseBetween (xs.reverse ++ before) ys after := by
  induction xs generalizing before with
  | nil => rfl
  | cons c xs ih => simp [lowercaseBetween, ih]

theorem lowercaseAfter_eq (before cs : List Char) :
    lowercaseAfter before cs = lowercaseBetween before cs [] := by
  induction cs generalizing before with
  | nil => rfl
  | cons c rest ih => rw [lowercaseAfter, lowercaseBetween, ih, List.append_nil]

theorem lowercase_toList (s : String) :
    (lowercase s).toList = lowercaseBetween [] s.toList [] := by
  rw [lowercase, String.toList_ofList, lowercaseAfter_eq]

/-- Every capital sigma of `p` has the form in one context that it has in another. -/
def SameForms (p before after before' after' : List Char) : Prop :=
  ∀ u v, p = u ++ 'Σ' :: v →
    sigma (u.reverse ++ before) (v ++ after) = sigma (u.reverse ++ before') (v ++ after')

theorem lowercaseBetween_congr {p before after before' after' : List Char}
    (same : SameForms p before after before' after') :
    lowercaseBetween before p after = lowercaseBetween before' p after' := by
  induction p generalizing before before' with
  | nil => rfl
  | cons c rest ih =>
    have later : SameForms rest (c :: before) after (c :: before') after' := by
      intro u v split
      simpa using same (c :: u) v (by rw [split, List.cons_append])
    rw [lowercaseBetween, lowercaseBetween, ih later]
    by_cases capital : c = 'Σ'
    · subst capital
      rw [smallLetters_sigma, smallLetters_sigma]
      exact congrArg (fun s => [s] ++ _) (same [] rest rfl)
    · rw [smallLetters_plain capital]

/-! ### Counting sigmas -/

/-- A capital sigma of `p` that has the form `x` in one context has it in the other one too. -/
def KeepsForm (x : Char) (p before after before' after' : List Char) : Prop :=
  ∀ u v, p = u ++ 'Σ' :: v →
    sigma (u.reverse ++ before) (v ++ after) = x → sigma (u.reverse ++ before') (v ++ after') = x

theorem count_le {x : Char} {p before after before' after' : List Char}
    (keeps : KeepsForm x p before after before' after') :
    (lowercaseBetween before p after).count x ≤ (lowercaseBetween before' p after').count x := by
  induction p generalizing before before' with
  | nil => exact Nat.le_refl 0
  | cons c rest ih =>
    have later : KeepsForm x rest (c :: before) after (c :: before') after' := by
      intro u v split
      simpa using keeps (c :: u) v (by rw [split, List.cons_append])
    rw [lowercaseBetween, lowercaseBetween, List.count_append, List.count_append]
    refine Nat.add_le_add ?_ (ih later)
    by_cases capital : c = 'Σ'
    · subst capital
      rw [smallLetters_sigma, smallLetters_sigma]
      by_cases form : sigma before (rest ++ after) = x
      · have kept : sigma before' (rest ++ after') = x := keeps [] rest rfl form
        rw [form, kept]
      · rw [List.count_singleton, beq_false_of_ne form]
        exact Nat.zero_le _
    · rw [smallLetters_plain capital]

theorem count_lt {x : Char} {u v before after before' after' : List Char}
    (keeps : KeepsForm x (u ++ 'Σ' :: v) before after before' after')
    (other : sigma (u.reverse ++ before) (v ++ after) ≠ x)
    (form : sigma (u.reverse ++ before') (v ++ after') = x) :
    (lowercaseBetween before (u ++ 'Σ' :: v) after).count x <
      (lowercaseBetween before' (u ++ 'Σ' :: v) after').count x := by
  have earlier : KeepsForm x u before ('Σ' :: v ++ after) before' ('Σ' :: v ++ after') := by
    intro u' v' split
    simpa using keeps u' (v' ++ 'Σ' :: v) (by rw [split]; simp)
  have later : KeepsForm x v ('Σ' :: (u.reverse ++ before)) after
      ('Σ' :: (u.reverse ++ before')) after' := by
    intro u' v' split
    simpa using keeps (u ++ 'Σ' :: u') v' (by rw [split]; simp)
  have first := count_le earlier
  have last := count_le later
  rw [lowercaseBetween_append, lowercaseBetween_append, lowercaseBetween, lowercaseBetween,
    smallLetters_sigma, smallLetters_sigma, form]
  simp only [List.count_append, List.count_singleton, beq_false_of_ne other, beq_self_eq_true]
  simp only [Bool.false_eq_true, if_false, if_true]
  omega

/-! ### Sigmas that their own text decides about -/

/--
A letter behind each capital sigma, or something before it that decides; and no letter before it, or
something behind it that decides.
-/
def Settled (p : List Char) : Prop :=
  ∀ u v, p = u ++ 'Σ' :: v →
    (beginsCased v = true ∨ u.all isIgnorable = false) ∧
      (beginsCased u.reverse = false ∨ v.all isIgnorable = false)

theorem Settled.sameForms {p : List Char} (settled : Settled p) (before after : List Char) :
    SameForms p before after [] [] := by
  intro u v split
  obtain ⟨near_before, near_after⟩ := settled u v split
  rw [List.append_nil, List.append_nil, sigma, sigma, endsWord, endsWord, beginsCased_append,
    beginsCased_append, List.all_reverse]
  cases passed : u.all isIgnorable with
  | true =>
    -- The letter behind decides, whatever stands before.
    have letter : beginsCased v = true := near_before.resolve_right (by simp [passed])
    have decides : v.all isIgnorable = false := by
      cases all : v.all isIgnorable with
      | false => rfl
      | true => exact absurd (beginsCased_ignorable all) (by simp [letter])
    simp [letter, decides]
  | false =>
    cases passed' : v.all isIgnorable with
    | false => rfl
    | true =>
      have none : beginsCased u.reverse = false := near_after.resolve_right (by simp [passed'])
      simp [none]

/-! ### A letter put beside a text -/

theorem keepsForm_before (p before : List Char) : KeepsForm 'σ' p before [] [] [] := by
  intro u v _ form
  rw [sigma, endsWord, List.append_nil, beginsCased_append, List.all_reverse] at form
  rw [sigma, endsWord, List.append_nil, List.append_nil]
  cases passed : u.all isIgnorable with
  | true => rw [beginsCased_ignorable (List.all_reverse.trans passed)]; rfl
  | false => simpa [passed] using form

theorem keepsForm_after (p after : List Char) : KeepsForm 'ς' p [] after [] [] := by
  intro u v _ form
  rw [sigma, endsWord, List.append_nil, beginsCased_append] at form
  rw [sigma, endsWord, List.append_nil, List.append_nil]
  cases passed : v.all isIgnorable with
  | true =>
    cases cased : beginsCased u.reverse with
    | true => rw [beginsCased_ignorable passed]; rfl
    | false => simp [cased] at form
  | false => simpa [passed] using form

/-- A letter in front makes a sigma end a word that does not end one alone. -/
theorem fewer_behind_letter {u v : List Char} (passed : u.all isIgnorable = true)
    (none : beginsCased v = false) :
    (lowercaseBetween ['A'] (u ++ 'Σ' :: v) []).count 'σ' <
      (lowercaseBetween [] (u ++ 'Σ' :: v) []).count 'σ' := by
  have letter : beginsCased ['A'] = true := by decide +kernel
  refine count_lt (keepsForm_before _ _) ?_ ?_
  · rw [sigma, endsWord, List.append_nil, beginsCased_append, List.all_reverse, if_pos passed,
      letter, none]
    decide
  · rw [sigma, endsWord, List.append_nil, List.append_nil,
      beginsCased_ignorable (List.all_reverse.trans passed)]
    rfl

/-- A letter behind keeps a sigma from ending a word that it ends alone. -/
theorem fewer_before_letter {u v : List Char} (cased : beginsCased u.reverse = true)
    (passed : v.all isIgnorable = true) :
    (lowercaseBetween [] (u ++ 'Σ' :: v) ['A']).count 'ς' <
      (lowercaseBetween [] (u ++ 'Σ' :: v) []).count 'ς' := by
  have letter : beginsCased ['A'] = true := by decide +kernel
  refine count_lt (keepsForm_after _ _) ?_ ?_
  · rw [sigma, endsWord, List.append_nil, beginsCased_append, if_pos passed, letter, Bool.not_true,
      Bool.and_false]
    decide
  · rw [sigma, endsWord, List.append_nil, List.append_nil, cased, beginsCased_ignorable passed]
    rfl

theorem smallLetters_A (before after : List Char) : smallLetters before 'A' after = ['a'] := by
  rw [smallLetters_plain (by decide) before after [] []]
  decide +kernel

end Text

namespace Host

open Text

theorem nameMatches_iff (name pattern : String) :
    nameMatches name pattern = true ↔
      lowercaseBetween [] pattern.toList [] <:+: lowercaseBetween [] name.toList [] := by
  rw [nameMatches, occursIn_iff, lowercase_toList, lowercase_toList]

theorem nameMatches_of_sameForms {a p b : String}
    (same : SameForms p.toList a.toList.reverse b.toList [] []) :
    nameMatches (a ++ p ++ b) p = true := by
  rw [nameMatches_iff, String.toList_append, String.toList_append, List.append_assoc,
    lowercaseBetween_append, lowercaseBetween_append, List.append_nil, List.append_nil,
    List.append_nil, lowercaseBetween_congr same]
  exact ⟨_, _, List.append_assoc ..⟩

/-- A pattern with an unsettled sigma is missed where a letter stands on its open side. -/
theorem settled_of_matches {p : String}
    (found : ∀ a b : String, nameMatches (a ++ p ++ b) p = true) : Settled p.toList := by
  have letter : "A".toList = ['A'] := rfl
  have empty : "".toList = [] := rfl
  intro u v split
  constructor
  · by_contra unsettled
    rw [not_or, Bool.not_eq_true, Bool.not_eq_false] at unsettled
    have fewer := fewer_behind_letter unsettled.2 unsettled.1
    have matched := (nameMatches_iff _ _).mp (found "A" "")
    rw [String.toList_append, String.toList_append, letter, empty, List.append_nil,
      List.singleton_append, lowercaseBetween, smallLetters_A, split] at matched
    have most := matched.sublist.count_le 'σ'
    rw [List.count_append] at most
    exact absurd fewer (Nat.not_lt.mpr (by simpa using most))
  · by_contra unsettled
    rw [not_or, Bool.not_eq_false, Bool.not_eq_false] at unsettled
    have fewer := fewer_before_letter unsettled.1 unsettled.2
    have matched := (nameMatches_iff _ _).mp (found "" "A")
    rw [String.toList_append, String.toList_append, letter, empty, List.nil_append,
      lowercaseBetween_append, List.append_nil, lowercaseBetween, smallLetters_A, split] at matched
    have most := matched.sublist.count_le 'ς'
    rw [List.count_append] at most
    exact absurd fewer (Nat.not_lt.mpr (by simpa [lowercaseBetween] using most))

/--
A pattern is found where its capital sigmas have the forms that they have in the pattern alone. It
is found in every name that it is a part of exactly if it settles those forms itself.
-/
theorem part_found_iff (p : String) :
    (∀ a b : String, SameForms p.toList a.toList.reverse b.toList [] [] →
        nameMatches (a ++ p ++ b) p = true) ∧
      ((∀ a b : String, nameMatches (a ++ p ++ b) p = true) ↔ Settled p.toList) := by
  refine ⟨fun a b same => nameMatches_of_sameForms same, settled_of_matches, ?_⟩
  intro settled a b
  exact nameMatches_of_sameForms (settled.sameForms _ _)

theorem part_found_at_end_of_word :
    SameForms "ΟΣ".toList "ΛΟΓ".toList.reverse " 1".toList [] [] ∧
      nameMatches ("ΛΟΓ" ++ "ΟΣ" ++ " 1") "ΟΣ" = true := by
  have same : SameForms "ΟΣ".toList "ΛΟΓ".toList.reverse " 1".toList [] [] := by
    intro u v split
    obtain - | ⟨_, - | ⟨_, _⟩⟩ := u
    · simp at split
    · cases split
      decide +kernel
    · simp at split
  exact ⟨same, (part_found_iff "ΟΣ").1 "ΛΟΓ" " 1" same⟩

/-- A sigma that ends a word is not found by its own name. -/
theorem final_sigma_not_found : nameMatches ("A" ++ "Σ" ++ "") "Σ" = false := by decide +kernel

end Host

end MidiPatch
