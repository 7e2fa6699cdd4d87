import DomainFactory.Proofs.Running
import DomainFactory.Proofs.Stations

/-!
# Runs that follow itineraries

A run follows stations when whatever it adds to the journal is orderly at them, and complete when
its result lets the run go on. Runs that follow stations one after another follow all of them; so
each step of a method gives the stations of its path.
-/
namespace DomainFactory

variable {σ ε φ α β : Type}

namespace Run

/-- The run adds entries that are orderly at some stations of a host, and that complete them when
its result passes. -/
def Follows (host : Host σ) (stations : List Station) (passes : α → Prop) (run : Run σ ε α) :
    Prop :=
  ∀ deadline world, ∃ news, (run deadline world).2.journal = world.journal ++ news ∧
    Orderly host world.journal stations news ∧
    ∀ value, (run deadline world).1 = .ok value → passes value →
      Completes host world.journal stations news

/-- The run adds entries in which no callback begins, and its values have a property. -/
def Notes (holds : α → Prop) (run : Run σ ε α) : Prop :=
  ∀ deadline world, ∃ news, (run deadline world).2.journal = world.journal ++ news ∧
    visited news = [] ∧ ∀ value, (run deadline world).1 = .ok value → holds value

/-- A run behind another notes what both note. -/
theorem Notes.bind {run : Run σ ε α} {next : α → Run σ ε β} {first : α → Prop} {second : β → Prop}
    (before : Notes first run) (behind : ∀ value, first value → Notes second (next value)) :
    Notes second (run >>= next) := by
  intro deadline world
  obtain ⟨news, journal, quiet, holds⟩ := before deadline world
  cases ended : run deadline world with
  | mk result later =>
    rw [ended] at journal holds
    cases result with
    | error stop =>
      refine ⟨news, ?_, quiet, ?_⟩
      · rw [bind_error ended]
        exact journal
      · intro value ok
        rw [bind_error ended] at ok
        cases ok
    | ok value =>
      obtain ⟨more, journals, silent, given⟩ := behind value (holds value rfl) deadline later
      refine ⟨news ++ more, ?_, ?_, ?_⟩
      · rw [bind_ok ended, journals, journal, List.append_assoc]
      · rw [visited_append, quiet, silent, List.append_nil]
      · rw [bind_ok ended]
        exact given

/-- A run that gives a value at once notes nothing. -/
theorem notes_pure {holds : α → Prop} {value : α} (given : holds value) :
    Notes holds (Run.pure value : Run σ ε α) := by
  intro deadline world
  refine ⟨[], (List.append_nil _).symm, rfl, ?_⟩
  intro other ok
  cases ok
  exact given

/-- The run of a known result notes nothing. -/
theorem notes_ofExcept (result : Except ε α) :
    Notes (fun value => result = .ok value) (ofExcept result : Run σ ε α) := by
  cases result with
  | ok value => exact notes_pure rfl
  | error error =>
    intro deadline world
    refine ⟨[], (List.append_nil _).symm, rfl, ?_⟩
    intro other ok
    cases ok

/-- A moment of running code begins no callback. -/
theorem notes_live (side : Side) (moment : Moment) :
    Notes (fun _ => True) (live side moment : Run σ ε Unit) := by
  cases moment with
  | pause milliseconds =>
    intro deadline world
    refine ⟨[], ?_, rfl, fun _ _ => trivial⟩
    rw [List.append_nil]
    unfold live wait
    cases deadline with
    | none => rfl
    | some deadline =>
      by_cases early : world.clock + milliseconds ≤ deadline
      · simp only [early, ↓reduceIte]
      · simp only [early, ↓reduceIte]
  | note text =>
    intro deadline world
    exact ⟨[⟨side, .noted text⟩], rfl, rfl, fun _ _ => trivial⟩

/-- Running code begins no callback, and gives the result of its answer. -/
theorem notes_play (side : Side) (answer : Answer α) :
    Notes (fun value => answer.result = .ok value) (play side answer : Run σ Fault α) := by
  have moments : ∀ list : List Moment,
      Notes (fun _ => True) (list.forM (live side) : Run σ Fault PUnit) := by
    intro list
    induction list with
    | nil => exact notes_pure trivial
    | cons moment list ih =>
      change Notes _ (live side moment >>= fun _ => list.forM (live side))
      exact (notes_live side moment).bind fun _ _ => ih
  exact (moments answer.moments).bind fun _ _ => notes_ofExcept answer.result

/-- A callback is followed at its station, when every answer that passes is granted. -/
theorem follows_consult {host : Host σ} {side : Side} {callback : Callback σ} {passes : α → Bool}
    {behaviour : Journal σ → Answer α}
    (granted : ∀ past value, (behaviour past).result = .ok value → passes value = true →
      host.Grants past callback) :
    Follows host [callback.station] (fun value => passes value = true)
      (consult side callback passes behaviour) := by
  intro deadline world
  obtain ⟨notes, journal, quiet, holds⟩ := notes_play side (behaviour world.journal) deadline
    (world.noting side (.began callback))
  have begun : Entry.begun? ⟨side, .began callback⟩ = some callback := rfl
  have asked : consult side callback passes behaviour deadline world =
      enclose side callback passes (play side (behaviour world.journal)) deadline world := rfl
  rw [asked, enclose_apply]
  cases ended : play side (behaviour world.journal) deadline
      (world.noting side (.began callback)) with
  | mk result later =>
    rw [ended] at journal holds
    have behind (event : Event σ) : (later.noting side event).journal =
        world.journal ++ (⟨side, .began callback⟩ :: (notes ++ [⟨side, event⟩])) := by
      change later.journal ++ _ = _
      rw [journal]
      change world.journal ++ [_] ++ notes ++ _ = _
      rw [List.append_assoc, List.append_assoc, List.singleton_append]
    have silent (event : Event σ) (ends : Entry.begun? ⟨side, event⟩ = none) :
        visited (notes ++ [⟨side, event⟩]) = [] := by
      rw [visited_append, quiet, visited, List.filterMap_cons, ends]
      rfl
    match result with
    | .ok value =>
      have ends : Entry.begun? (σ := σ) ⟨side, if passes value then .passed callback
          else .stopped callback⟩ = none := by
        unfold Entry.begun?
        cases passes value <;> rfl
      refine ⟨_, behind _, orderly_single begun (silent _ ends), ?_⟩
      intro other same passed
      cases same
      refine completes_single begun (silent _ ends) ⟨granted _ value (holds value rfl) passed, ?_⟩
      exact ⟨notes, [], by rw [if_pos passed], quiet⟩
    | .error (.raised fault) =>
      refine ⟨_, behind _, orderly_single begun (silent _ rfl), ?_⟩
      intro other same
      cases same
    | .error .overdue =>
      refine ⟨⟨side, .began callback⟩ :: notes, ?_, orderly_single begun quiet, ?_⟩
      · change later.journal = _
        rw [journal]
        exact List.append_assoc _ _ _
      · intro other same
        cases same

/-- The run leaves the journal as it is, and no value of it passes. -/
def Ends (passes : α → Prop) (run : Run σ ε α) : Prop :=
  ∀ deadline world, (run deadline world).2.journal = world.journal ∧
    ∀ value, (run deadline world).1 = .ok value → ¬ passes value

/-- A run that gives a value that does not pass ends. -/
theorem ends_pure {passes : α → Prop} {value : α} (stops : ¬ passes value) :
    Ends passes (Run.pure value : Run σ ε α) := by
  intro deadline world
  refine ⟨rfl, ?_⟩
  intro other ok
  cases ok
  exact stops

variable {host : Host σ} {stations more : List Station}

/-- A run behind another follows its own stations behind those of the other, when it goes on only
behind values that pass. -/
theorem Follows.bind {run : Run σ ε α} {next : α → Run σ ε β} {through : α → Prop}
    {passes : β → Prop} (before : Follows host stations through run)
    (behind : ∀ value, through value → Follows host more passes (next value))
    (stops : ∀ value, ¬ through value → Ends passes (next value)) :
    Follows host (stations ++ more) passes (run >>= next) := by
  intro deadline world
  obtain ⟨news, journal, orderly, complete⟩ := before deadline world
  cases ended : run deadline world with
  | mk result later =>
    rw [ended] at journal complete
    cases result with
    | error stop =>
      rw [bind_error ended]
      refine ⟨news, journal, orderly.extend more, ?_⟩
      intro value ok
      cases ok
    | ok value =>
      rw [bind_ok ended]
      by_cases passed : through value
      · obtain ⟨rest, journals, further, all⟩ := behind value passed deadline later
        have first := complete value rfl passed
        change later.journal = world.journal ++ news at journal
        rw [journal] at journals further all
        refine ⟨news ++ rest, ?_, first.followed further, ?_⟩
        · rw [journals, List.append_assoc]
        · intro other ok pass
          exact first.append (all other ok pass)
      · obtain ⟨same, never⟩ := stops value passed deadline later
        refine ⟨news, same.trans journal, orderly.extend more, ?_⟩
        intro other ok pass
        exact absurd pass (never other ok)

/-- A run behind one whose every value passes. -/
theorem Follows.then {run : Run σ ε α} {next : α → Run σ ε β} {passes : β → Prop}
    (before : Follows host stations (fun _ => True) run)
    (behind : ∀ value, Follows host more passes (next value)) :
    Follows host (stations ++ more) passes (run >>= next) :=
  before.bind (fun value _ => behind value) fun _ stopped => absurd trivial stopped

/-- A run follows its stations whatever its errors are called. -/
theorem Follows.mapError {run : Run σ ε α} {passes : α → Prop} (change : ε → φ)
    (follows : Follows host stations passes run) :
    Follows host stations passes (run.mapError change) := by
  intro deadline world
  obtain ⟨news, journal, orderly, complete⟩ := follows deadline world
  refine ⟨news, ?_, orderly, ?_⟩
  · rw [mapError_world]
    exact journal
  · intro value ok
    exact complete value (mapError_eq_ok.mp ok)

/-- A run completes its stations with fewer values too. -/
theorem Follows.mono {run : Run σ ε α} {passes fewer : α → Prop}
    (follows : Follows host stations passes run) (implies : ∀ value, fewer value → passes value) :
    Follows host stations fewer run := by
  intro deadline world
  obtain ⟨news, journal, orderly, complete⟩ := follows deadline world
  exact ⟨news, journal, orderly, fun value ok pass => complete value ok (implies value pass)⟩

/-- A known result follows no stations. -/
theorem follows_ofExcept {passes : α → Prop} (result : Except ε α) :
    Follows host [] passes (ofExcept result : Run σ ε α) := by
  intro deadline world
  refine ⟨[], ?_, orderly_nil, fun _ _ _ => completes_nil⟩
  cases result with
  | ok value => exact (List.append_nil _).symm
  | error error => exact (List.append_nil _).symm

/-- A value given at once follows no stations. -/
theorem follows_pure {passes : α → Prop} (value : α) :
    Follows host [] passes (Run.pure value : Run σ ε α) :=
  follows_ofExcept (.ok value)

end Run

namespace Host

/-- Finding a service is a station. -/
theorem follows_resolve (host : Host σ) (type : String) :
    Run.Follows host [.resolve type] (fun _ => True) (host.resolve type) := by
  refine Run.Follows.mono (Run.follows_consult ?_) (fun _ _ => rfl)
  intro past service found _
  exact ⟨service, found⟩

/-- The hook before a handler is a station. -/
theorem follows_before (host : Host σ) (operation : Operation) (target : Option Entity) :
    Run.Follows host [.before operation] (fun _ => True) (host.before operation target) := by
  refine Run.Follows.mono (Run.follows_consult ?_) (fun _ _ => rfl)
  intro past value ended _
  exact ended

/-- A registered handler is a station. -/
theorem follows_handle {host : Host σ} {key : String} {handler : Handler σ}
    (invocation : Invocation σ) (registered : host.handler? key = some handler) :
    Run.Follows host [.handler key] (fun _ => True) (host.handle key handler invocation) := by
  refine Run.Follows.mono (Run.follows_consult ?_) (fun _ _ => rfl)
  intro past completion ended _
  exact ⟨handler, registered, completion, ended⟩

/-- The hook after a handler is a station. -/
theorem follows_after (host : Host σ) (operation : Operation) (output : Option Output) :
    Run.Follows host [.after operation] (fun _ => True) (host.after operation output) := by
  refine Run.Follows.mono (Run.follows_consult ?_) (fun _ _ => rfl)
  intro past value ended _
  exact ended

/-- Services are found one after another. -/
theorem follows_resolveAll (host : Host σ) (parameters : List Parameter) :
    Run.Follows host (serviceStations parameters) (fun _ => True) (host.resolveAll parameters) := by
  unfold resolveAll
  generalize (Keyed.empty : Keyed σ) = services
  induction parameters generalizing services with
  | nil => exact Run.follows_pure services
  | cons parameter parameters ih =>
    rw [List.foldlM_cons]
    have first : Run.Follows host [.resolve parameter.type] (fun _ => True)
        (host.resolve parameter.type >>= fun service =>
          Run.pure (services.insert parameter.name service)) :=
      (host.follows_resolve parameter.type).then fun service => Run.follows_pure _
    exact first.then fun services => ih services

end Host

namespace Gate

/-- The stations at which checks are asked. -/
def stations (checks : List (GateCheck σ)) : List Station :=
  checks.map fun check => .check check.key

/-- Asking registered checks in order follows their stations, and a verdict of leave completes
them. -/
theorem follows_askAll {host : Host σ} (side : Side) (kind : Kind) (call : Call)
    (services : Keyed σ) {checks : List (GateCheck σ)}
    (registered : ∀ check ∈ checks, host.checker? check.key = some check.checker) :
    Run.Follows host (stations checks) (fun verdict => verdict.allowed = true)
      (askAll side kind call services checks) := by
  induction checks with
  | nil => exact Run.follows_pure _
  | cons check checks ih =>
    have here : host.checker? check.key = some check.checker :=
      registered check List.mem_cons_self
    have rest := ih fun other member => registered other (List.mem_cons_of_mem _ member)
    have asked : Run.Follows host [.check check.key]
        (fun verdict : Verdict => verdict.allowed = true)
        (check.ask side (check.question kind call services)) := by
      apply Run.follows_consult
      intro past verdict answered allowed
      exact ⟨check.checker, here, verdict, answered, allowed⟩
    refine asked.bind ?_ ?_
    · intro verdict allowed
      rw [if_pos allowed]
      exact rest
    · intro verdict denied
      rw [if_neg denied]
      exact Run.ends_pure denied

end Gate

/-- Whether a reply says that nothing was denied. -/
def Reply.Passes : Reply → Prop
  | .completed _ => True
  | .denied _ => False
  | .probed verdict => verdict.allowed = true

namespace Path

variable {host : Host σ}

/-- The stations of an operation: its services, its checks, and its handler between the hooks. -/
def runStations (operation : Operation) (checks : List Station) : List Station :=
  Host.serviceStations operation.injectedParameters ++ (checks ++
    [.before operation, .handler operation.handler, .after operation])

/-- The stations of a probe: the services of its operation and its checks. -/
def probeStations (operation : Operation) (checks : List Station) : List Station :=
  Host.serviceStations operation.injectedParameters ++ checks

/-- Running an operation follows its stations, and completes them when nothing is denied. -/
theorem follows_execute {typeName : String} {saveState : Bool} {operation : Operation}
    {handler : Handler σ} {gate : Gate σ} (call : Call)
    (handled : host.handler? operation.handler = some handler)
    (registered : ∀ check ∈ gate.checks, host.checker? check.key = some check.checker) :
    Run.Follows host (runStations operation (Gate.stations gate.checks)) Reply.Passes
      (execute host typeName saveState operation handler gate call) := by
  unfold execute runStations
  refine ((host.follows_resolveAll _).mapError Fault.asFailure).then fun services => ?_
  have gated := (Gate.follows_askAll gate.side gate.kind call services registered).mapError
    Fault.asFailure
  refine gated.bind ?_ ?_
  · intro verdict allowed
    simp only [allowed, Bool.not_true, Bool.false_eq_true, ↓reduceIte]
    have received : Run.Follows host [] (fun _ => True)
        (Run.ofExcept (operation.receiver typeName call.target) : Run σ Failure _) :=
      Run.follows_ofExcept _
    refine received.then fun target => ?_
    refine ((host.follows_before operation target).mapError Fault.asFailure).then fun _ => ?_
    refine ((Host.follows_handle _ handled).mapError Fault.asFailure).then fun completion => ?_
    refine ((host.follows_after operation _).mapError Fault.asFailure).then fun _ => ?_
    exact Run.follows_pure _
  · intro verdict denied
    simp only [Bool.eq_false_iff.mpr denied, Bool.not_false, ↓reduceIte]
    exact Run.ends_pure id

/-- A probe follows its stations, and completes them when nothing is denied. -/
theorem follows_probe {operation : Operation} {gate : Gate σ} (call : Call)
    (registered : ∀ check ∈ gate.checks, host.checker? check.key = some check.checker) :
    Run.Follows host (probeStations operation (Gate.stations gate.checks)) Reply.Passes
      (probe host operation gate call) := by
  unfold probe probeStations
  refine ((host.follows_resolveAll _).mapError Fault.asFailure).then fun services => ?_
  have gated := (Gate.follows_askAll gate.side gate.kind ⟨none, call.arguments⟩ services
    registered).mapError Fault.asFailure
  rw [← List.append_nil (Gate.stations gate.checks)]
  refine gated.bind ?_ ?_
  · intro verdict allowed
    exact Run.follows_pure _
  · intro verdict denied
    exact Run.ends_pure denied

end Path

end DomainFactory
