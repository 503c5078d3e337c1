import MidiPatch.Proofs.Digits
import MidiPatch.Setup.Tree

/-!
# Reading back what was written

A node shows a value if the tree is the same and the scalars hold what is written. Whoever reads
such a node finds the value again: first the scalars, then lists and fields, and with them setups.
-/

namespace MidiPatch.Yaml

/-! ### Nodes that show a value -/

namespace Value

mutual

/--
Whether a node holds what was written for a value. A text may be written in any style, but not plain
if it has another reading.
-/
def shows : Value → Node → Bool
  | .bool b, .scalar t .plain none => t = boolText b
  | .number n, .scalar t .plain none => t = toString n
  | .text s, .scalar t .plain none => t = s && !Plain.isAmbiguous s
  | .text s, .scalar t _ none => t = s
  | .sequence vs, .sequence ns none => itemsShow vs ns
  | .mapping es, .mapping ns none => entriesShow es ns
  | _, _ => false

def itemsShow : List Value → List Node → Bool
  | [], [] => true
  | v :: vs, n :: ns => v.shows n && itemsShow vs ns
  | _, _ => false

def entriesShow : List (String × Value) → List (Node × Node) → Bool
  | [], [] => true
  | (k, v) :: es, (.scalar t _ none, n) :: ns => t = k && v.shows n && entriesShow es ns
  | _, _ => false

end

variable {n : Node}

theorem shows_bool {b : Bool} (shown : (Value.bool b).shows n) :
    n = .scalar (boolText b) .plain none := by
  unfold shows at shown
  split at shown <;> simp_all

theorem shows_number {k : Nat} (shown : (Value.number k).shows n) :
    n = .scalar (toString k) .plain none := by
  unfold shows at shown
  split at shown <;> simp_all

theorem shows_text {s : String} (shown : (Value.text s).shows n) :
    ∃ style, n = .scalar s style none ∧ (style = .plain → Plain.isAmbiguous s = false) := by
  unfold shows at shown
  split at shown <;> simp_all

theorem forall₂_of_itemsShow {vs : List Value} {ns : List Node} (shown : itemsShow vs ns) :
    List.Forall₂ (fun v n => v.shows n) vs ns := by
  induction vs generalizing ns with
  | nil =>
    unfold itemsShow at shown
    split at shown <;> simp_all
  | cons v vs ih =>
    unfold itemsShow at shown
    split at shown <;> simp_all

theorem shows_sequence {vs : List Value} (shown : (Value.sequence vs).shows n) :
    ∃ ns, n = .sequence ns none ∧ List.Forall₂ (fun v n => v.shows n) vs ns := by
  unfold shows at shown
  split at shown <;> simp_all [forall₂_of_itemsShow]

/-- Whether a node is the entry's name and the one beside it shows the entry's value. -/
def EntryShows (e : String × Value) (pair : Node × Node) : Prop :=
  (∃ style, pair.1 = .scalar e.1 style none) ∧ e.2.shows pair.2

theorem forall₂_of_entriesShow {es : List (String × Value)} {ns : List (Node × Node)}
    (shown : entriesShow es ns) : List.Forall₂ EntryShows es ns := by
  induction es generalizing ns with
  | nil =>
    unfold entriesShow at shown
    split at shown <;> simp_all
  | cons e es ih =>
    unfold entriesShow at shown
    split at shown <;> simp_all [EntryShows]

theorem shows_mapping {es : List (String × Value)} (shown : (Value.mapping es).shows n) :
    ∃ ns, n = .mapping ns none ∧ List.Forall₂ EntryShows es ns := by
  unfold shows at shown
  split at shown <;> simp_all [forall₂_of_entriesShow]

end Value

namespace Read

variable {α β : Type}

/-! ### Readers that give something -/

/-- In any document the reader gives `a`, and it follows no alias. -/
def Gives (r : Read α) (a : α) : Prop := ∀ d k, (r d).run k = some (a, k)

theorem Gives.pure (a : α) : Gives (Pure.pure a) a := fun _ _ => rfl

theorem Gives.bind {r : Read α} {f : α → Read β} {a : α} {b : β} (first : Gives r a)
    (next : Gives (f a) b) : Gives (r >>= f) b := by
  intro d k
  have step : ((r >>= f) d).run k = ((r d).run k).bind fun p => (f p.1 d).run p.2 := rfl
  rw [step, first d k]
  exact next d k

theorem Gives.mapM {f : α → Read β} {as : List α} {bs : List β}
    (each : List.Forall₂ (fun a b => Gives (f a) b) as bs) : Gives (as.mapM f) bs := by
  induction each with
  | nil => exact .pure []
  | cons first _ ih =>
    rw [List.mapM_cons]
    exact first.bind (ih.bind (.pure _))

variable {n : Node}

theorem resolve_gives {v : Value} (shown : v.shows n) : Gives (resolve n) n := by
  cases n with
  | «alias» anchor => cases v <;> simp [Value.shows] at shown
  | scalar s style tag => exact .pure _
  | sequence ns tag => exact .pure _
  | mapping ns tag => exact .pure _

/-- Neither an empty scalar nor a null one is a number. -/
theorem not_absent_of_natural? {s : String} {k : Nat} (number : Plain.natural? s = some k) :
    (s.isEmpty || Plain.isNull s) = false := by
  rw [← Bool.not_eq_true]
  intro absent
  simp only [Plain.isNull, Bool.or_eq_true, String.isEmpty_iff, decide_eq_true_eq] at absent
  rcases absent with rfl | ((rfl | rfl) | rfl) | rfl <;> cases number

/-- What was written for a value is never taken for nothing. -/
theorem isAbsent_gives {v : Value} (shown : v.shows n) : Gives (isAbsent n) false := by
  cases v with
  | bool b =>
    rw [Value.shows_bool shown]
    cases b <;> exact .pure _
  | number k =>
    rw [Value.shows_number shown]
    have present := not_absent_of_natural? (Plain.natural?_toString k)
    exact fun _ _ => congrArg (fun b => some (b, _)) present
  | text s =>
    obtain ⟨style, rfl, clear⟩ := Value.shows_text shown
    cases style with
    | plain =>
      -- What would be taken for nothing has another reading, so it is not written plain.
      have present : (s.isEmpty || Plain.isNull s) = false := by
        have clear := clear rfl
        simp only [Plain.isAmbiguous, Bool.or_eq_false_iff] at clear ⊢
        exact clear.1.1.1.1
      exact fun _ _ => congrArg (fun b => some (b, _)) present
    | _ => exact .pure _
  | sequence vs =>
    obtain ⟨ns, rfl, -⟩ := Value.shows_sequence shown
    exact .pure _
  | mapping es =>
    obtain ⟨ns, rfl, -⟩ := Value.shows_mapping shown
    exact .pure _

/-- The reader gives back whatever was written. -/
def Rereads (write : α → Value) (read : Node → Read α) : Prop :=
  ∀ a n, (write a).shows n → Gives (read n) a

/-! ### Scalars -/

theorem rereads_text : Rereads .text text := by
  intro s n shown
  refine (resolve_gives shown).bind ?_
  obtain ⟨style, rfl, -⟩ := Value.shows_text shown
  exact .pure s

theorem rereads_bool : Rereads .bool bool := by
  intro b n shown
  obtain rfl := Value.shows_bool shown
  cases b <;> exact fun _ _ => rfl

theorem natural_gives {bound k : Nat} (small : k < bound) (shown : (Value.number k).shows n) :
    Gives (natural bound n) k := by
  obtain rfl := Value.shows_number shown
  have bare : Gives (bareText "int" (.scalar (toString k) .plain none)) (toString k) :=
    (resolve_gives shown).bind (.pure _)
  refine bare.bind ?_
  rw [Plain.natural?_toString]
  simp only [small, if_true]
  exact .pure k

theorem rereads_byte : Rereads (fun b => .number b.toNat) byte := by
  intro b n shown
  refine (natural_gives b.toNat_lt shown).bind ?_
  rw [Nat.toUInt8_eq, UInt8.ofNat_toNat]
  exact .pure b

theorem rereads_word : Rereads (fun w => .number w.toNat) word := by
  intro w n shown
  refine (natural_gives w.toNat_lt shown).bind ?_
  rw [Nat.toUInt64_eq, UInt64.ofNat_toNat]
  exact .pure w

theorem rereads_kind : Rereads (fun k => .text k.name) Kind.read := by
  intro k n shown
  have named : Gives (choice n) k.name := by
    refine (resolve_gives shown).bind ?_
    obtain ⟨style, rfl, -⟩ := Value.shows_text shown
    exact .pure _
  refine named.bind ?_
  cases k <;> exact .pure _

/-! ### Lists and fields -/

theorem Rereads.list {write : α → Value} {read : Node → Read α} (each : Rereads write read) :
    Rereads (fun as => .sequence (as.map write)) (list read) := by
  intro as n shown
  obtain ⟨ns, rfl, items⟩ := Value.shows_sequence shown
  refine ((resolve_gives shown).bind (.pure ns) : Gives (Read.items _) ns).bind (.mapM ?_)
  rw [List.forall₂_map_left_iff] at items
  exact items.flip.imp fun n a => each a n

/-- Fields, as a reader has them, that show the entries of a mapping. -/
abbrev Shown (es : List (String × Value)) (fields : List (String × Node)) : Prop :=
  List.Forall₂ (fun e f => f.1 = e.1 ∧ e.2.shows f.2) es fields

variable {es : List (String × Value)} {fs : List (String × Node)}

theorem names_give {ns : List (Node × Node)} (entries : List.Forall₂ Value.EntryShows es ns) :
    ∃ fs, Gives (ns.mapM fun p => return (← text p.1, p.2)) fs ∧ Shown es fs := by
  induction entries with
  | nil => exact ⟨[], .pure [], .nil⟩
  | @cons e pair es ns entry _ ih =>
    obtain ⟨fs, given, rest⟩ := ih
    obtain ⟨⟨style, name⟩, value⟩ := entry
    have key : Gives (text pair.1) e.1 := by rw [name]; exact .pure e.1
    refine ⟨(e.1, pair.2) :: fs, ?_, .cons ⟨rfl, value⟩ rest⟩
    rw [List.mapM_cons]
    exact (key.bind (.pure (e.1, pair.2))).bind (given.bind (.pure _))

theorem fields_gives (shown : (Value.mapping es).shows n) :
    ∃ fs, Gives (fields n) fs ∧ Shown es fs := by
  obtain ⟨ns, rfl, entries⟩ := Value.shows_mapping shown
  obtain ⟨fs, given, same⟩ := names_give entries
  exact ⟨fs, (resolve_gives shown).bind given, same⟩

/-- Of the entries with a name there is at most one, and the field shows what is in it. -/
theorem field?_gives {name : String} {v : Option Value} (shown : Shown es fs)
    (found : es.filter (·.1 = name) = Value.entryIf name v) :
    ∃ n, Gives (field? name fs) n ∧ Option.Rel (fun v n => v.shows n) v n := by
  have same : Shown (es.filter (·.1 = name)) (fs.filter (·.1 = name)) :=
    List.rel_filter (fun e f both => by simp [both.1]) shown
  rw [found] at same
  cases v with
  | none =>
    have none_left : fs.filter (·.1 = name) = [] := List.forall₂_nil_left_iff.mp same
    refine ⟨none, ?_, .none⟩
    rw [field?, none_left]
    exact .pure none
  | some v =>
    obtain ⟨f, rest, ⟨-, value⟩, last, alone⟩ := List.forall₂_cons_left_iff.mp same
    obtain rfl := List.forall₂_nil_left_iff.mp last
    refine ⟨some f.2, ?_, .some value⟩
    rw [field?, alone]
    exact .pure (some f.2)

variable {write : α → Value} {read : Node → Read α} {name : String}

theorem present_gives {v : Value} (shown : Shown es fs)
    (found : es.filter (·.1 = name) = [(name, v)]) :
    ∃ n, Gives (field? name fs) (some n) ∧ v.shows n := by
  obtain ⟨_, given, value⟩ := field?_gives (v := some v) shown found
  cases value with
  | some value => exact ⟨_, given, value⟩

theorem required_gives (each : Rereads write read) (shown : Shown es fs) {a : α}
    (found : es.filter (·.1 = name) = [(name, write a)]) :
    Gives (required name read fs) a := by
  obtain ⟨n, given, value⟩ := present_gives shown found
  exact given.bind (each a n value)

theorem orDefault_gives (each : Rereads write read) (shown : Shown es fs) {a other : α}
    (found : es.filter (·.1 = name) = [(name, write a)]) :
    Gives (orDefault name other read fs) a := by
  obtain ⟨n, given, value⟩ := present_gives shown found
  exact given.bind (each a n value)

theorem optional_gives (each : Rereads write read) (shown : Shown es fs) {a : Option α}
    (found : es.filter (·.1 = name) = Value.entryIf name (a.map write)) :
    Gives (optional name read fs) a := by
  obtain ⟨_, given, value⟩ := field?_gives shown found
  cases a with
  | none =>
    cases value with
    | none => exact given.bind (.pure none)
  | some a =>
    cases value with
    | some value =>
      refine given.bind ((resolve_gives value).bind ((isAbsent_gives value).bind ?_))
      exact (each a _ value).bind (.pure (some a))

end Read

@[simp] theorem Value.filter_entryIf {name other : String} {v : Option Value} :
    (entryIf other v).filter (·.1 = name) = if other = name then entryIf other v else [] := by
  cases v <;> simp [entryIf, List.filter_cons]

end MidiPatch.Yaml

namespace MidiPatch

open Yaml Yaml.Read

/-! ### Setups -/

theorem Filter.rereads : Rereads Filter.value Filter.read := by
  intro f n shown
  obtain ⟨fs, given, same⟩ := fields_gives shown
  refine given.bind ?_
  refine (optional_gives (a := f.channels) rereads_byte.list same (by simp)).bind ?_
  refine (optional_gives (a := f.kinds) rereads_kind.list same (by simp)).bind ?_
  exact .pure f

namespace Setup

theorem Port.rereads : Rereads Port.value Port.read := by
  intro p n shown
  obtain ⟨fs, given, same⟩ := fields_gives shown
  refine given.bind ?_
  refine (required_gives (a := p.name) rereads_text same (by simp)).bind ?_
  refine (optional_gives (a := p.input) rereads_text same (by simp)).bind ?_
  refine (optional_gives (a := p.output) rereads_text same (by simp)).bind ?_
  exact .pure p

theorem Route.rereads : Rereads Route.value Route.read := by
  intro r n shown
  obtain ⟨fs, given, same⟩ := fields_gives shown
  refine given.bind ?_
  refine (required_gives (a := r.source) rereads_text same (by simp)).bind ?_
  refine (required_gives (a := r.destination) rereads_text same (by simp)).bind ?_
  refine (optional_gives (a := r.filter) Filter.rereads same (by simp)).bind ?_
  exact .pure r

theorem rereads_decoding :
    Rereads
      (fun (r, m) =>
        .mapping [("running_status", .bool r), ("max_sysex_len", .number m.toNat)])
      readDecoding := by
  intro (r, m) n shown
  obtain ⟨fs, given, same⟩ := fields_gives shown
  refine given.bind ?_
  refine (orDefault_gives (a := r) rereads_bool same (by simp)).bind ?_
  refine (orDefault_gives (a := m) rereads_word same (by simp)).bind ?_
  exact .pure (r, m)

theorem rereads_merging :
    Rereads (fun c => .mapping [("compress_running_status", .bool c)]) readMerging := by
  intro c n shown
  obtain ⟨fs, given, same⟩ := fields_gives shown
  refine given.bind ?_
  exact orDefault_gives (a := c) rereads_bool same (by simp)

theorem rereads : Rereads value read := by
  intro s n shown
  obtain ⟨fs, given, same⟩ := fields_gives shown
  refine given.bind ?_
  refine (orDefault_gives (a := s.queueCapacity) rereads_word same (by simp)).bind ?_
  refine (orDefault_gives (a := s.pollInterval) rereads_word same (by simp)).bind ?_
  refine (orDefault_gives (a := (s.runningStatus, s.maxSysEx)) rereads_decoding same
    (by simp)).bind ?_
  refine (orDefault_gives (a := s.compress) rereads_merging same (by simp)).bind ?_
  refine (required_gives (a := s.ports) Port.rereads.list same (by simp)).bind ?_
  refine (orDefault_gives (a := s.routes) Route.rereads.list same (by simp)).bind ?_
  exact .pure s

end Setup

end MidiPatch
