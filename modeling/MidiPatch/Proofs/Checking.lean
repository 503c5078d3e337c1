import MidiPatch.Proofs.Ports
import MidiPatch.Setup.Check

/-!
# Setups that pass the check

`Setup.faults` lists all that is wrong with a setup, in the order of the setup. The check stops at the
first of them, and a setup without any is consistent (`check_finds_first`).
-/

namespace MidiPatch.Setup

/-! ### What a setup has to be -/

/-- A port that may stand in a setup. -/
structure Port.Fit (p : Port) : Prop where
  named : p.name.isEmpty = false
  used : p.input.isSome = true ∨ p.output.isSome = true

/-- A route that may stand in a setup. -/
structure Joins (s : Setup) (r : Route) : Prop where
  source : ∃ p ∈ s.ports, p.name = r.source ∧ p.input.isSome = true
  destination : ∃ p ∈ s.ports, p.name = r.destination ∧ p.output.isSome = true
  channels : ∀ numbers, r.filter.bind (·.channels) = some numbers →
    ∀ n ∈ numbers, isChannelNumber n = true

structure Consistent (s : Setup) : Prop where
  capacity : s.queueCapacity ≠ 0
  sysEx : 2 ≤ s.maxSysEx
  inhabited : s.ports ≠ []
  few : s.ports.length ≤ 255
  fit : ∀ p ∈ s.ports, p.Fit
  names : (s.ports.map Port.name).Nodup
  routes : ∀ r ∈ s.routes, s.Joins r

/-! ### All that is wrong -/

def faultIf (fault : Fault) (condition : Prop) [Decidable condition] : List Fault :=
  if condition then [fault] else []

def globalFaults (s : Setup) : List Fault :=
  faultIf .noCapacity (s.queueCapacity = 0) ++ faultIf .sysExLimit (s.maxSysEx < 2) ++
    faultIf .noPorts (s.ports = []) ++
    faultIf (.tooManyPorts s.ports.length) (255 < s.ports.length)

/-- What is wrong with port `i` of these ports. -/
def portFaults (ports : List Port) (i : Nat) (p : Port) : List Fault :=
  faultIf (.unnamedPort i) (p.name = "") ++
    faultIf (.duplicateName p.name) (∃ earlier ∈ ports.take i, earlier.name = p.name) ++
    faultIf (.idlePort p.name) (p.input = none ∧ p.output = none)

/-- The channels that a route names, in order. -/
def Route.channels (r : Route) : List UInt8 := (r.filter.bind (·.channels)).getD []

def routeFaults (s : Setup) (r : Route) : List Fault :=
  faultIf (.unknownPort r) (∀ p ∈ s.ports, p.name ≠ r.source) ++
    faultIf (.unknownPort r) (∀ p ∈ s.ports, p.name ≠ r.destination) ++
    faultIf (.noInput r.source) (∀ p ∈ s.ports, p.name = r.source → p.input = none) ++
    faultIf (.noOutput r.destination) (∀ p ∈ s.ports, p.name = r.destination → p.output = none) ++
    (r.channels.filter fun n => n < 1 ∨ 16 < n).map (.badChannel r)

/-- All faults of a setup, each as often as it occurs. -/
def faults (s : Setup) : List Fault :=
  s.globalFaults ++ (s.ports.zipIdx.flatMap fun (p, i) => portFaults s.ports i p) ++
    s.routes.flatMap s.routeFaults

theorem faultIf_eq_nil {fault : Fault} {condition : Prop} [Decidable condition] :
    faultIf fault condition = [] ↔ ¬ condition := by
  unfold faultIf
  split <;> simp [*]

/-! ### Setups without faults -/

variable {s : Setup} {r : Route}

theorem globalFaults_eq_nil : s.globalFaults = [] ↔
    s.queueCapacity ≠ 0 ∧ 2 ≤ s.maxSysEx ∧ s.ports ≠ [] ∧ s.ports.length ≤ 255 := by
  simp only [globalFaults, List.append_eq_nil_iff, faultIf_eq_nil, UInt64.not_lt, Nat.not_lt,
    and_assoc, ne_eq]

theorem portFaults_eq_nil {ports : List Port} {i : Nat} {p : Port} : portFaults ports i p = [] ↔
    p.Fit ∧ ∀ earlier ∈ ports.take i, earlier.name ≠ p.name := by
  have used : ¬ (p.input = none ∧ p.output = none) ↔
      p.input.isSome = true ∨ p.output.isSome = true := by
    rw [Classical.not_and_iff_not_or_not, Option.isSome_iff_ne_none, Option.isSome_iff_ne_none]
  simp only [portFaults, List.append_eq_nil_iff, faultIf_eq_nil, used, not_exists, not_and]
  constructor
  · rintro ⟨⟨named, new⟩, used⟩
    exact ⟨⟨by simpa using named, used⟩, new⟩
  · rintro ⟨⟨named, used⟩, new⟩
    exact ⟨⟨by simpa using named, new⟩, used⟩

theorem nodup_names_iff {ports : List Port} : (ports.map Port.name).Nodup ↔
    ∀ p i, (p, i) ∈ ports.zipIdx → ∀ earlier ∈ ports.take i, earlier.name ≠ p.name := by
  rw [List.nodup_iff_getElem?_ne_getElem?]
  constructor
  · intro distinct p i place earlier before same
    obtain ⟨j, inside, rfl⟩ := List.mem_take_iff_getElem.mp before
    have here := List.mem_zipIdx_iff_getElem?.mp place
    have length : i < ports.length := (List.getElem?_eq_some_iff.mp here).1
    refine distinct j i (by omega) (by rwa [List.length_map]) ?_
    rw [List.getElem?_map, List.getElem?_map, here, List.getElem?_eq_getElem (by omega)]
    exact congrArg some same
  · intro distinct j i before length same
    rw [List.length_map] at length
    rw [List.getElem?_map, List.getElem?_map, List.getElem?_eq_getElem length,
      List.getElem?_eq_getElem (before.trans length)] at same
    refine distinct ports[i] i ?_ ports[j] ?_ (Option.some.inj same)
    · exact List.mem_zipIdx_iff_getElem?.mpr (List.getElem?_eq_getElem length)
    · exact List.mem_take_iff_getElem.mpr ⟨j, by omega, rfl⟩

theorem isChannelNumber_iff {n : UInt8} : isChannelNumber n = true ↔ ¬ (n < 1 ∨ 16 < n) := by
  rw [isChannelNumber, Bool.and_eq_true, decide_eq_true_eq, decide_eq_true_eq, not_or,
    UInt8.not_lt, UInt8.not_lt]

theorem routeFaults_eq_nil : s.routeFaults r = [] ↔ s.Joins r := by
  have channels : (∀ numbers, r.filter.bind (·.channels) = some numbers →
      ∀ n ∈ numbers, isChannelNumber n = true) ↔ ∀ n ∈ r.channels, ¬ (n < 1 ∨ 16 < n) := by
    rw [Route.channels]
    cases r.filter.bind (·.channels) with
    | none => simp
    | some numbers => simp only [Option.some.injEq, forall_eq', isChannelNumber_iff, Option.getD_some]
  simp only [routeFaults, List.append_eq_nil_iff, faultIf_eq_nil, List.map_eq_nil_iff,
    List.filter_eq_nil_iff, decide_eq_true_eq, not_forall, ← Option.isSome_iff_ne_none]
  constructor
  · rintro ⟨⟨⟨⟨-, -⟩, p, member, named, input⟩, q, member', named', output⟩, proper⟩
    exact ⟨⟨p, member, named, input⟩, ⟨q, member', named', output⟩, channels.mpr proper⟩
  · rintro ⟨⟨p, member, named, input⟩, ⟨q, member', named', output⟩, proper⟩
    exact ⟨⟨⟨⟨⟨p, member, not_not_intro named⟩, q, member', not_not_intro named'⟩,
      p, member, named, input⟩, q, member', named', output⟩, channels.mp proper⟩

theorem faults_eq_nil : s.faults = [] ↔ s.Consistent := by
  simp only [faults, List.append_eq_nil_iff, List.flatMap_eq_nil_iff, globalFaults_eq_nil,
    portFaults_eq_nil, routeFaults_eq_nil, Prod.forall]
  constructor
  · rintro ⟨⟨⟨capacity, sysEx, inhabited, few⟩, ports⟩, routes⟩
    refine ⟨capacity, sysEx, inhabited, few, fun p member => ?_,
      nodup_names_iff.mpr fun p i place => (ports p i place).2, routes⟩
    obtain ⟨i, found⟩ := List.mem_iff_getElem?.mp member
    exact (ports p i (List.mem_zipIdx_iff_getElem?.mpr found)).1
  · intro consistent
    refine ⟨⟨⟨consistent.capacity, consistent.sysEx, consistent.inhabited, consistent.few⟩,
      fun p i place => ⟨consistent.fit p ?_, nodup_names_iff.mp consistent.names p i place⟩⟩,
      consistent.routes⟩
    exact List.mem_of_getElem? (List.mem_zipIdx_iff_getElem?.mp place)

/-! ### The fault that is found -/

/-- Refuses with the first of these faults. -/
def report : List Fault → Except Fault Unit
  | [] => .ok ()
  | fault :: _ => .error fault

theorem report_append (found more : List Fault) :
    report (found ++ more) = report found >>= fun _ => report more := by
  cases found <;> rfl

theorem report_ok_iff {found : List Fault} : report found = .ok () ↔ found = [] := by
  cases found <;> simp [report]

theorem report_error_iff {found : List Fault} {fault : Fault} :
    report found = .error fault ↔ found.head? = some fault := by
  cases found <;> simp [report]

theorem refuse_eq (fault : Fault) (condition : Prop) [Decidable condition] :
    refuse fault (decide condition) = report (faultIf fault condition) := by
  unfold refuse faultIf
  by_cases holds : condition <;> simp [holds, report]

theorem checkGlobals_eq : s.checkGlobals = report s.globalFaults := by
  have empty : s.ports.isEmpty = decide (s.ports = []) := by
    cases s.ports <;> rfl
  simp only [checkGlobals, globalFaults, report_append, ← refuse_eq, empty, bind_assoc]

/-- The check remembers the names of the ports before. -/
theorem checkPorts_eq (past rest : List Port) (names : List String)
    (known : ∀ name, name ∈ names ↔ ∃ earlier ∈ past, earlier.name = name) :
    checkPorts past.length names rest = report
      ((rest.zipIdx past.length).flatMap fun (p, i) => portFaults (past ++ rest) i p) := by
  induction rest generalizing past names with
  | nil => rfl
  | cons p rest ih =>
    have known' : ∀ name, name ∈ p.name :: names ↔
        ∃ earlier ∈ past ++ [p], earlier.name = name := by
      intro name
      simp only [List.mem_cons, known, List.mem_append, List.not_mem_nil, or_false, or_and_right,
        exists_or, exists_eq_left]
      rw [or_comm, eq_comm]
    have later := ih (past ++ [p]) (p.name :: names) known'
    rw [List.length_append, List.length_singleton, List.append_assoc, List.singleton_append]
      at later
    have repeated : names.contains p.name = decide (∃ earlier ∈ past, earlier.name = p.name) := by
      rw [Bool.eq_iff_iff, List.contains_iff_mem, decide_eq_true_eq, known]
    have empty : p.name.isEmpty = decide (p.name = "") := by
      rw [Bool.eq_iff_iff, String.isEmpty_iff, decide_eq_true_eq]
    have idle : (p.input.isNone && p.output.isNone) =
        decide (p.input = none ∧ p.output = none) := by
      cases p.input <;> cases p.output <;> rfl
    rw [checkPorts, later, repeated, empty, idle, List.zipIdx_cons, List.flatMap_cons,
      report_append]
    simp only [portFaults, List.take_left, report_append, ← refuse_eq, bind_assoc]

/-- Where names differ, a name leads to the one port of that name, or to none. -/
theorem routePort_cases (names : (s.ports.map Port.name).Nodup) (name : String) :
    (s.routePort r name = .error (.unknownPort r) ∧ ∀ q ∈ s.ports, q.name ≠ name) ∨
      ∃ p, s.routePort r name = .ok p ∧ p.name = name ∧
        ∀ P : Port → Prop, (∀ q ∈ s.ports, q.name = name → P q) ↔ P p := by
  unfold routePort
  cases found : s.port? name with
  | none => exact .inl ⟨rfl, fun q member => by simpa using List.find?_eq_none.mp found q member⟩
  | some p =>
    have member := List.mem_of_find?_eq_some found
    have named : p.name = name := by simpa using List.find?_some found
    refine .inr ⟨p, rfl, named, fun P => ⟨fun all => all p member named, fun holds q inside same => ?_⟩⟩
    rwa [List.inj_on_of_nodup_map names inside member (same.trans named.symm)]

theorem report_channels (r : Route) :
    report ((r.channels.filter fun n => n < 1 ∨ 16 < n).map (.badChannel r)) =
      match (r.filter.bind (·.channels)).bind fun cs => cs.find? (!isChannelNumber ·) with
      | some channel => .error (.badChannel r channel)
      | none => .ok () := by
  have bad : (fun n => decide (n < 1 ∨ 16 < n)) = (!isChannelNumber ·) := by
    funext n
    rw [Bool.eq_iff_iff, Bool.not_eq_true', Bool.eq_false_iff, ne_eq, isChannelNumber_iff,
      decide_eq_true_eq, not_not]
  rw [bad, Route.channels]
  cases r.filter.bind (·.channels) with
  | none => rfl
  | some numbers =>
    rw [Option.getD_some, Option.bind_some, ← List.head?_filter]
    cases numbers.filter (!isChannelNumber ·) <;> rfl

theorem checkRoute_eq (names : (s.ports.map Port.name).Nodup) :
    s.checkRoute r = report (s.routeFaults r) := by
  unfold checkRoute routeFaults
  simp only [report_append, bind_assoc, report_channels]
  rcases s.routePort_cases (r := r) names r.source with ⟨found, missing⟩ | ⟨p, found, named, every⟩
  · rw [found, faultIf, if_pos missing]
    rfl
  have known : report (faultIf (.unknownPort r) (∀ q ∈ s.ports, q.name ≠ r.source)) = .ok () :=
    report_ok_iff.mpr (faultIf_eq_nil.mpr (every fun _ => False).mp)
  rw [found, known]
  rcases s.routePort_cases (r := r) names r.destination with
    ⟨found', missing⟩ | ⟨q, found', named', every'⟩
  · rw [found', faultIf, if_pos missing]
    rfl
  have known' : report (faultIf (.unknownPort r) (∀ q ∈ s.ports, q.name ≠ r.destination)) =
      .ok () := report_ok_iff.mpr (faultIf_eq_nil.mpr (every' fun _ => False).mp)
  have input : p.input.isNone =
      decide (∀ q ∈ s.ports, q.name = r.source → q.input = none) := by
    rw [Bool.eq_iff_iff, Option.isNone_iff_eq_none, decide_eq_true_eq]
    exact (every fun q => q.input = none).symm
  have output : q.output.isNone =
      decide (∀ q ∈ s.ports, q.name = r.destination → q.output = none) := by
    rw [Bool.eq_iff_iff, Option.isNone_iff_eq_none, decide_eq_true_eq]
    exact (every' fun q => q.output = none).symm
  rw [found', known', ← refuse_eq, ← refuse_eq, ← input, ← output, ← named, ← named']
  rfl

theorem checkRoutes_eq (names : (s.ports.map Port.name).Nodup) (routes : List Route) :
    s.checkRoutes routes = report (routes.flatMap s.routeFaults) := by
  induction routes with
  | nil => rfl
  | cons r rest ih =>
    rw [checkRoutes, checkRoute_eq names, ih, List.flatMap_cons, report_append]

/-- The check refuses a setup with its first fault. -/
theorem check_eq (s : Setup) : s.check = report s.faults := by
  have ports := checkPorts_eq [] s.ports [] (by simp)
  rw [List.length_nil, List.nil_append] at ports
  rw [check, checkGlobals_eq, ports, faults, report_append, report_append, bind_assoc]
  congr 1
  funext _
  -- Routes are looked at only where no port is at fault, and there names differ.
  cases wrong : s.ports.zipIdx.flatMap fun (p, i) => portFaults s.ports i p with
  | cons fault more => rfl
  | nil =>
    have names : (s.ports.map Port.name).Nodup := by
      refine nodup_names_iff.mpr fun p i place => ?_
      exact (portFaults_eq_nil.mp (List.flatMap_eq_nil_iff.mp wrong (p, i) place)).2
    rw [checkRoutes_eq names]

theorem check_ok (checked : s.check = .ok ()) : s.Consistent := by
  rw [check_eq, report_ok_iff] at checked
  exact faults_eq_nil.mp checked

/--
The check accepts exactly the consistent setups. It refuses any other with its first fault, in this
order: those of the whole setup, then port by port an empty name, the name of an earlier port and a
port without any link, then route by route an unknown source, an unknown destination, a source without
input, a destination without output, and the first number that is not a channel.
-/
theorem check_finds_first (s : Setup) :
    (s.check = .ok () ↔ s.Consistent) ∧
      ∀ fault, s.check = .error fault ↔ s.faults.head? = some fault := by
  rw [check_eq]
  exact ⟨report_ok_iff.trans faults_eq_nil, fun fault => report_error_iff⟩

end MidiPatch.Setup
