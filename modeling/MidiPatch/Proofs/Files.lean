import MidiPatch.Proofs.Ports
import MidiPatch.Proofs.Rereading
import MidiPatch.Setup.File

/-!
# Saved setups

What was written to a file is what is read from it, and so a setup that passes its check is what is
loaded after it was saved. All that is asked of the text between the two is that it reads as the
tree that was written.
-/

namespace MidiPatch

open Patchbay (bind_ok)

namespace Folder

variable {f : Folder} {names rest target : List String} {name path : String} {place : Place}
  {bytes : List UInt8}

/-! ### The bytes of a text -/

theorem toList_loop_eq (bs : ByteArray) (i : Nat) (taken : List UInt8) :
    ByteArray.toList.loop bs i taken = taken.reverse ++ bs.data.toList.drop i := by
  fun_induction ByteArray.toList.loop bs i taken with
  | case1 i taken inside ih =>
    have read : bs.get! i = bs.data.toList[i] := by
      rw [ByteArray.get!, Array.getElem_toList]
      exact getElem!_pos bs.data i inside
    rw [ih, read, List.drop_eq_getElem_cons inside]
    simp
  | case2 i taken outside =>
    have all : bs.data.toList.length ≤ i := Nat.le_of_not_lt outside
    rw [List.drop_eq_nil_of_le all, List.append_nil]

theorem textOf_toUTF8 (text : String) : textOf text.toUTF8.toList = .ok text := by
  have same : (⟨text.toUTF8.toList.toArray⟩ : ByteArray) = text.toUTF8 := by
    rw [ByteArray.toList, toList_loop_eq]
    simp
  rw [textOf, same, String.fromUTF8?]
  simp only [String.toUTF8_eq_toByteArray, text.isValidUTF8, dif_pos]
  rfl

/-! ### Paths after a file was written -/

/-- The file at the end of a path, whether it is there or not. -/
def Place.file? : Place → Option (List String)
  | .file names => some names
  | .free names => some names
  | _ => none

theorem hasFile_put : (f.put target bytes).hasFile names ↔ target = names ∨ f.hasFile names := by
  simp only [hasFile, put, List.any_cons, List.any_filter, Bool.or_eq_true, decide_eq_true_eq,
    List.any_eq_true, Bool.and_eq_true]
  constructor
  · rintro (rfl | ⟨file, there, -, same⟩)
    · exact .inl rfl
    · exact .inr ⟨file, there, same⟩
  · rintro (rfl | ⟨file, there, same⟩)
    · exact .inl rfl
    · by_cases new : target = names
      · exact .inl new
      · exact .inr ⟨file, there, fun old => new (old.symm.trans same), same⟩

theorem hasFolder_put (there : f.hasFolder names) : (f.put target bytes).hasFolder names := by
  simp only [hasFolder, put, List.any_cons, List.any_filter, Bool.or_eq_true, List.any_eq_true,
    Bool.and_eq_true] at there ⊢
  obtain ⟨file, there, above⟩ := there
  by_cases old : file.1 = target
  · -- The file that is replaced may be the only one in the folder, and stays in it.
    exact .inl (old ▸ above)
  · exact .inr ⟨file, there, by simpa using old, above⟩

/-- What has the given names on the way to it. -/
def at? (f : Folder) (names : List String) : Place :=
  if f.hasFile names then .file names
  else if f.hasFolder names then .folder names
  else .free names

/-- A step from a folder looks at the files only where it goes down. -/
theorem step_cases (names : List String) (name : String) :
    (∃ result : Except Error Place, (∀ f : Folder, f.step (.folder names) name = result) ∧
      ∀ place, result = .ok place → place.file? = none) ∨
    ∀ f : Folder, f.step (.folder names) name = .ok (f.at? (names ++ [name])) := by
  by_cases here : name.isEmpty || name = "."
  · refine .inl ⟨.ok (.folder names), fun f => if_pos here, ?_⟩
    rintro _ ⟨⟩
    rfl
  by_cases up : name = ".."
  · refine .inl ⟨_, fun f => (if_neg here).trans (if_pos up), ?_⟩
    rintro _ ⟨⟩
    split <;> rfl
  by_cases long : name.utf8ByteSize > 255
  · refine .inl ⟨_, fun f => (if_neg here).trans ((if_neg up).trans (if_pos long)), ?_⟩
    rintro _ ⟨⟩
  · right
    intro f
    refine (if_neg here).trans ((if_neg up).trans ((if_neg long).trans ?_))
    rw [at?, apply_ite Except.ok, apply_ite Except.ok]

theorem at?_file (ends : (f.at? names).file? = some target) :
    names = target ∧ (f.hasFolder target → f.hasFile target) := by
  unfold at? at ends
  split at ends
  · next file =>
    cases ends
    exact ⟨rfl, fun _ => file⟩
  split at ends
  · cases ends
  next no_folder =>
  cases ends
  exact ⟨rfl, fun folder => absurd folder no_folder⟩

theorem put_at?_file : (f.put target bytes).at? target = .file target :=
  if_pos (hasFile_put.mpr (.inl rfl))

theorem put_at?_folder (clear : f.hasFolder target → f.hasFile target) {next : List String}
    (folder : f.at? names = .folder next) : (f.put target bytes).at? names = .folder next := by
  unfold at? at folder
  split at folder
  · cases folder
  next no_file =>
  split at folder
  · next there =>
    cases folder
    have kept : ¬ (f.put target bytes).hasFile names := by
      rw [hasFile_put]
      rintro (rfl | file)
      · exact no_file (clear there)
      · exact no_file file
    rw [at?, if_neg kept, if_pos (hasFolder_put there)]
  · cases folder

theorem walk_stops {start : Place} (no_folder : ∀ names, start ≠ .folder names)
    (walk : rest.foldlM f.step start = .ok place) : rest = [] ∧ place = start := by
  cases rest with
  | nil => exact ⟨rfl, (Except.ok.inj walk).symm⟩
  | cons name rest =>
    rw [List.foldlM_cons] at walk
    obtain ⟨_, step, -⟩ := bind_ok walk
    cases start with
    | folder names => exact absurd rfl (no_folder names)
    | file | free | outside => cases step

/-- No folder on the way is lost, and at the end of the way is the file. -/
theorem walk_put (walk : rest.foldlM f.step (.folder names) = .ok place)
    (ends : place.file? = some target) :
    (f.hasFolder target → f.hasFile target) ∧
      rest.foldlM (f.put target bytes).step (.folder names) = .ok (.file target) := by
  induction rest generalizing names with
  | nil =>
    cases walk
    cases ends
  | cons name rest ih =>
    rw [List.foldlM_cons] at walk ⊢
    obtain ⟨next, step, walk⟩ := bind_ok walk
    obtain ⟨result, same, elsewhere⟩ | down := step_cases names name
    · -- The step stays in folders, so the walk goes on from the same one.
      rw [same] at step ⊢
      subst step
      cases next with
      | folder next => exact ih walk
      | file | free => cases elsewhere _ rfl
      | outside =>
        obtain ⟨-, rfl⟩ := walk_stops (by rintro _ ⟨⟩) walk
        cases ends
    · -- Only the end of the way tells that a folder on it is not where the file goes.
      rw [down] at step ⊢
      have here := Except.ok.inj step
      by_cases folder : ∃ next', next = .folder next'
      · obtain ⟨_, rfl⟩ := folder
        obtain ⟨clear, onward⟩ := ih walk
        rw [put_at?_folder clear here]
        exact ⟨clear, onward⟩
      · obtain ⟨rfl, rfl⟩ := walk_stops (fun n same => folder ⟨n, same⟩) walk
        rw [← here] at ends
        obtain ⟨rfl, clear⟩ := at?_file ends
        rw [put_at?_file]
        exact ⟨clear, rfl⟩

theorem find_put (found : f.find path = .ok place) (ends : place.file? = some target) :
    (f.put target bytes).find path = .ok (.file target) := by
  unfold find at found ⊢
  split at found
  · cases found
  next some_path =>
  rw [if_neg some_path]
  split at found
  · cases found
    cases ends
  next inside =>
  rw [if_neg inside]
  exact (walk_put found ends).2

theorem write_eq (found : f.find path = .ok place) (ends : place.file? = some target) :
    f.write path bytes = .ok (f.put target bytes) := by
  rw [write, found]
  cases place <;> cases ends <;> rfl

theorem read_put (found : f.find path = .ok place) (ends : place.file? = some target) :
    (f.put target bytes).read path = .ok bytes := by
  rw [read, find_put found ends]
  have first : (f.put target bytes).files.lookup target = some bytes := List.lookup_cons_self
  simp only [bind, Except.bind, first]

/-- What was written to a file is read from it. -/
theorem readText_of_writeText {text : String} (found : f.find path = .ok place)
    (ends : place.file? = some target) :
    ∃ g, f.writeText path text = .ok g ∧ g.readText path = .ok text := by
  refine ⟨_, write_eq found ends, ?_⟩
  rw [readText, read_put found ends]
  exact textOf_toUTF8 text

end Folder

/-! ### Setups -/

/-- Whether the text of a value reads as a document that shows the value. -/
def Yaml.Value.readsBack (v : Value) : Bool := (Document.ofText? v.render).any (v.shows ·.root)

namespace Setup

variable {s : Setup}

theorem check_of_ofText {text : String} (read : ofText text = .ok s) : s.check = .ok () := by
  unfold ofText at read
  split at read
  · cases read
  split at read
  · next passed =>
    cases read
    exact passed
  · cases read

theorem check_of_load {folder : Folder} {path : String} (loaded : load folder path = .ok s) :
    s.check = .ok () := by
  unfold load ofFile at loaded
  split at loaded
  · cases loaded
  next text _ =>
  cases read : ofText text with
  | ok s' =>
    rw [read] at loaded
    cases loaded
    exact check_of_ofText read
  | error e =>
    rw [read] at loaded
    cases loaded

theorem ofText_text (checked : s.check = .ok ()) (faithful : s.value.readsBack) :
    ofText s.text = .ok s := by
  obtain ⟨d, parsed, shown⟩ := (Option.any_eq_true _ _).mp faithful
  have described : ofDocument? d = some s := by
    rw [ofDocument?, Yaml.Read.run, rereads s d.root shown d 0]
    rfl
  rw [ofText, text, parsed, Option.bind_some, described]
  simp only [checked]

/--
A setup that passes its check is loaded as it was saved, wherever there can be a file, if its text
reads as what was written; and nothing else is ever loaded than setups that pass the check.
-/
theorem saved_setup_loads (s : Setup) (folder : Folder) (path : String) :
    (s.check = .ok () → s.value.readsBack →
      (∃ place names, folder.find path = .ok place ∧ place.file? = some names) →
        ∃ saved, s.save folder path = .ok saved ∧ load saved path = .ok s) ∧
      (∀ text, ofText text = .ok s → s.check = .ok ()) ∧
        (load folder path = .ok s → s.check = .ok ()) := by
  refine ⟨?_, fun _ => check_of_ofText, check_of_load⟩
  rintro checked faithful ⟨place, names, found, ends⟩
  obtain ⟨saved, written, read⟩ := Folder.readText_of_writeText found ends
  refine ⟨saved, ?_, ?_⟩
  · rw [save, written]
    rfl
  · rw [load, read, ofFile, ofText_text checked faithful]
    rfl

/-- Names that would mean something else if they were not in quotes, and a filter without kinds. -/
def trickySetup : Setup :=
  { ports := [{ name := "null", input := some "", output := some "a: b" }]
    routes :=
      [{ source := "null", destination := "null", filter := some {} },
        { source := "null", destination := "null", filter := some { channels := some [] } }] }

theorem tricky_readsBack : trickySetup.value.readsBack := by
  unfold Yaml.Value.readsBack Yaml.Value.render Yaml.Document.ofText? Yaml.tokens
  rw [String.toList_ofList]
  decide +kernel

theorem saved_setup_loads_with_tricky_names :
    trickySetup.check = .ok () ∧ trickySetup.value.readsBack ∧
      (∃ place names, Folder.find {} "s" = .ok place ∧ place.file? = some names) ∧
        ∃ saved, trickySetup.save {} "s" = .ok saved ∧ load saved "s" = .ok trickySetup := by
  have checked : trickySetup.check = .ok () := by cbv
  have one : "s".splitOn "/" = ["s"] := by
    rw [String.splitOn, if_neg (by decide), String.splitOnAux, if_neg (by decide +kernel),
      if_neg (by decide +kernel), String.splitOnAux, if_pos (by decide +kernel)]
    decide +kernel
  have found : Folder.find {} "s" = .ok (.free ["s"]) := by
    rw [Folder.find, one]
    cbv
  have leads : ∃ place names, Folder.find {} "s" = .ok place ∧ place.file? = some names :=
    ⟨_, _, found, rfl⟩
  exact ⟨checked, tricky_readsBack, leads,
    (saved_setup_loads trickySetup {} "s").1 checked tricky_readsBack leads⟩

end Setup

end MidiPatch
