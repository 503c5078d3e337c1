/-!
# Similar words

`similarity` is the measure of Jaro: the share of characters that two words have in common at nearly
the same place, reduced where those come in another order.
-/

namespace MidiPatch.Text

/-- The first place from `low` up to below `high` that holds `c` and is not taken. -/
def freePlace? (c : Char) (low high : Nat) (taken : List Nat) (word : List Char) : Option Nat :=
  (word.zipIdx.find? fun (d, j) => low ≤ j && j < high && d = c && !taken.contains j).map (·.2)

/--
Pairs the characters of one word, from number `i` on, with those of another that are at most `range`
places away: the characters of the first that found a partner, and the places of the partners.
-/
def commonPlaces (range : Nat) (b : List Char) : Nat → List Nat → List Char → List Char × List Nat
  | _, taken, [] => ([], taken)
  | i, taken, c :: rest =>
    match freePlace? c (i - range) (i + range + 1) taken b with
    | some j =>
      let (common, taken) := commonPlaces range b (i + 1) (j :: taken) rest
      (c :: common, taken)
    | none => commonPlaces range b (i + 1) taken rest

/-- The similarity of two words, from zero to one. -/
def similarity (a b : List Char) : Float :=
  if a.isEmpty && b.isEmpty then 1
  else if a.isEmpty || b.isEmpty then 0
  else
    let (common, taken) := commonPlaces (max a.length b.length / 2 - 1) b 0 [] a
    let partners := b.zipIdx.filterMap fun (d, j) => if taken.contains j then some d else none
    let moved := ((common.zip partners).filter fun (c, d) => c != d).length / 2
    let m := common.length.toFloat
    if common.isEmpty then 0
    else (m / a.length.toFloat + m / b.length.toFloat + (common.length - moved).toFloat / m) / 3

/--
The word that is most similar to another one, the last of several; none if all are too different.
-/
def mostSimilar? (word : String) (words : List String) : Option String :=
  (words.foldl (fun best w =>
    let s := similarity word.toList w.toList
    if s > 0.7 && best.all fun b => b.1 ≤ s then some (s, w) else best)
    (none : Option (Float × String))).map (·.2)

end MidiPatch.Text
