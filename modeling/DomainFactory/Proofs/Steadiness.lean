import DomainFactory.Proofs.Following

/-!
# Runs with settled results

Code of a host may wait and note what it likes. It is steady when what its provider and its checks
answer depends on nothing but what they are asked. The services of an operation and the verdict of
its gate are then settled before any run: every run gives the same, unless it is overdue.
-/
namespace DomainFactory

variable {σ ε φ α β : Type}

namespace Run

/-- The run gives a result in every world, unless it is overdue at a deadline. -/
def Settles (result : Except ε α) (run : Run σ ε α) : Prop :=
  ∀ deadline world, (run deadline world).1 = result.mapError Stop.raised ∨
    deadline ≠ none ∧ (run deadline world).1 = .error .overdue

/-- Without a deadline the run is never overdue. -/
def Punctual (run : Run σ ε α) : Prop :=
  ∀ world, (run none world).1 ≠ .error .overdue

/-- A run with a settled result is punctual. -/
theorem Settles.punctual {result : Except ε α} {run : Run σ ε α} (settles : Settles result run) :
    Punctual run := by
  intro world overdue
  rcases settles none world with given | ⟨limited, _⟩
  · rw [given] at overdue
    cases result <;> cases overdue
  · exact limited rfl

/-- What a run gives that is not overdue is its settled result. -/
theorem Settles.eq {result : Except ε α} {run : Run σ ε α} (settles : Settles result run)
    {deadline : Option Nat} {world : World σ}
    (timely : (run deadline world).1 ≠ .error .overdue) :
    (run deadline world).1 = result.mapError Stop.raised :=
  (settles deadline world).resolve_right fun overdue => timely overdue.2

/-- The result of a known result is settled. -/
theorem settles_ofExcept (result : Except ε α) : Settles result (ofExcept result : Run σ ε α) := by
  intro deadline world
  cases result <;> exact Or.inl rfl

/-- The result of one run after another is settled when the results of both are. -/
theorem Settles.bind {result : Except ε α} {results : α → Except ε β} {run : Run σ ε α}
    {next : α → Run σ ε β} (first : Settles result run)
    (behind : ∀ value, result = .ok value → Settles (results value) (next value)) :
    Settles (result >>= results) (run >>= next) := by
  intro deadline world
  cases ended : run deadline world with
  | mk outcome later =>
    have given := first deadline world
    rw [ended] at given
    rcases given with settled | ⟨limited, overdue⟩
    · change outcome = _ at settled
      subst settled
      cases result with
      | error error =>
        rw [bind_error ended]
        exact Or.inl rfl
      | ok value =>
        rw [bind_ok ended]
        exact behind value rfl deadline later
    · change outcome = _ at overdue
      subst overdue
      rw [bind_error ended]
      exact Or.inr ⟨limited, rfl⟩

/-- The changed result of a run is settled when the result is. -/
theorem Settles.map {result : Except ε α} {run : Run σ ε α} (settles : Settles result run)
    (change : α → β) :
    Settles (result.map change) (run >>= fun value => Run.pure (change value)) := by
  have changed := settles.bind fun value _ => settles_ofExcept (.ok (change value))
  cases result with
  | error error => exact changed
  | ok value => exact changed

/-- The result of a run is settled whatever its errors are called. -/
theorem Settles.mapError {result : Except ε α} {run : Run σ ε α} (change : ε → φ)
    (settles : Settles result run) : Settles (result.mapError change) (run.mapError change) := by
  intro deadline world
  have given := settles deadline world
  unfold Run.mapError
  cases ended : run deadline world with
  | mk outcome later =>
    rw [ended] at given
    rcases given with settled | ⟨limited, overdue⟩
    · change outcome = _ at settled
      subst settled
      cases result <;> exact Or.inl rfl
    · change outcome = _ at overdue
      subst overdue
      exact Or.inr ⟨limited, rfl⟩

/-- Moments of running code end, unless one of them would wait too long. -/
theorem settles_live (side : Side) (moment : Moment) :
    Settles (.ok ()) (live side moment : Run σ ε Unit) := by
  intro deadline world
  cases moment with
  | note text => exact Or.inl rfl
  | pause milliseconds =>
    unfold live wait
    cases deadline with
    | none => exact Or.inl rfl
    | some deadline =>
      dsimp only
      split
      · exact Or.inl rfl
      · exact Or.inr ⟨Option.some_ne_none deadline, rfl⟩

/-- Running code gives the result of its answer. -/
theorem settles_play (side : Side) (answer : Answer α) :
    Settles answer.result (play side answer : Run σ Fault α) := by
  have moments : ∀ list : List Moment,
      Settles (.ok PUnit.unit) (list.forM (live side) : Run σ Fault PUnit) := by
    intro list
    induction list with
    | nil => exact settles_ofExcept (.ok _)
    | cons moment list ih => exact (settles_live side moment).bind fun _ _ => ih
  exact (moments answer.moments).bind fun _ _ => settles_ofExcept answer.result

/-- A callback gives what the code behind it answers after all that has happened, unless it is
overdue. -/
theorem consult_result (side : Side) (callback : Callback σ) (passes : α → Bool)
    (behaviour : Journal σ → Answer α) (deadline : Option Nat) (world : World σ) :
    (consult side callback passes behaviour deadline world).1 =
        (behaviour world.journal).result.mapError Stop.raised ∨
      deadline ≠ none ∧
        (consult side callback passes behaviour deadline world).1 = .error .overdue := by
  have asked : consult side callback passes behaviour deadline world =
      enclose side callback passes (play side (behaviour world.journal)) deadline world := rfl
  have played := settles_play side (behaviour world.journal) deadline
    (world.noting side (.began callback))
  rw [asked, enclose_apply]
  cases ended : play side (behaviour world.journal) deadline
      (world.noting side (.began callback)) with
  | mk outcome later =>
    rw [ended] at played
    rcases played with settled | ⟨limited, overdue⟩
    · change outcome = _ at settled
      subst settled
      cases (behaviour world.journal).result <;> exact Or.inl rfl
    · change outcome = _ at overdue
      subst overdue
      exact Or.inr ⟨limited, rfl⟩

/-- The result of a callback is settled when the code behind it always answers the same. -/
theorem settles_consult {side : Side} {callback : Callback σ} {passes : α → Bool}
    {behaviour : Journal σ → Answer α} {result : Except Fault α}
    (same : ∀ past, (behaviour past).result = result) :
    Settles result (consult side callback passes behaviour) := by
  intro deadline world
  rw [← same world.journal]
  exact consult_result side callback passes behaviour deadline world

/-- A callback is punctual. -/
theorem punctual_consult (side : Side) (callback : Callback σ) (passes : α → Bool)
    (behaviour : Journal σ → Answer α) : Punctual (consult side callback passes behaviour) := by
  intro world overdue
  rcases consult_result side callback passes behaviour none world with given | ⟨limited, _⟩
  · rw [given] at overdue
    generalize (behaviour world.journal).result = result at overdue
    cases result <;> cases overdue
  · exact limited rfl

/-- One punctual run after another is punctual. -/
theorem Punctual.bind {run : Run σ ε α} {next : α → Run σ ε β} (first : Punctual run)
    (behind : ∀ value, Punctual (next value)) : Punctual (run >>= next) := by
  intro world
  cases ended : run none world with
  | mk outcome later =>
    cases outcome with
    | ok value =>
      rw [bind_ok ended]
      exact behind value later
    | error stop =>
      rw [bind_error ended]
      have timely := first world
      rw [ended] at timely
      intro overdue
      cases overdue
      exact timely rfl

/-- A run is punctual whatever its errors are called. -/
theorem Punctual.mapError {run : Run σ ε α} (change : ε → φ) (punctual : Punctual run) :
    Punctual (run.mapError change) := by
  intro world
  have timely := punctual world
  unfold Run.mapError
  rcases ended : run none world with ⟨_ | stop, later⟩
  · rw [ended] at timely
    cases ‹Stop ε› with
    | raised error =>
      simp only [ne_eq, Except.error.injEq, Stop.map, reduceCtorEq, not_false_eq_true]
    | overdue => exact absurd rfl timely
  · simp only [ne_eq, reduceCtorEq, not_false_eq_true]

/-- A value of two runs is that of the second behind a value of the first. -/
theorem of_bind_ok {run : Run σ ε α} {next : α → Run σ ε β} {deadline : Option Nat}
    {world : World σ} {value : β} (given : ((run >>= next) deadline world).1 = .ok value) :
    ∃ first later, run deadline world = (.ok first, later) ∧
      (next first deadline later).1 = .ok value := by
  obtain ⟨first, later, ended, rest⟩ := bind_eq_ok (Prod.ext given rfl)
  exact ⟨first, later, ended, congrArg Prod.fst rest⟩

/-- The run adds to the journal and takes nothing away. -/
def Grows (run : Run σ ε α) : Prop :=
  ∀ deadline world, ∃ news, (run deadline world).2.journal = world.journal ++ news

/-- A callback begins at a station during the run. -/
def Visits (station : Station) (run : Run σ ε α) : Prop :=
  ∀ deadline world, ∃ news, (run deadline world).2.journal = world.journal ++ news ∧
    station ∈ visited news

/-- A run that follows stations grows. -/
theorem Follows.grows {host : Host σ} {stations : List Station} {passes : α → Prop}
    {run : Run σ ε α} (follows : Follows host stations passes run) : Grows run := by
  intro deadline world
  obtain ⟨news, journal, _⟩ := follows deadline world
  exact ⟨news, journal⟩

/-- The first entry that a callback adds to the journal is its beginning, and no other callback
begins behind it. -/
theorem consult_begins (side : Side) (callback : Callback σ) (passes : α → Bool)
    (behaviour : Journal σ → Answer α) (deadline : Option Nat) (world : World σ) :
    ∃ rest, (consult side callback passes behaviour deadline world).2.journal =
      world.journal ++ ⟨side, .began callback⟩ :: rest ∧ visited rest = [] := by
  have asked : consult side callback passes behaviour deadline world =
      enclose side callback passes (play side (behaviour world.journal)) deadline world := rfl
  obtain ⟨notes, journal, quiet, _⟩ := notes_play side (behaviour world.journal) deadline
    (world.noting side (.began callback))
  rw [asked, enclose_apply]
  cases ended : play side (behaviour world.journal) deadline
      (world.noting side (.began callback)) with
  | mk outcome later =>
    rw [ended] at journal
    have open_ : later.journal = world.journal ++ ⟨side, .began callback⟩ :: notes :=
      journal.trans (List.append_assoc _ _ _)
    have closed (event : Event σ) (ends : Entry.begun? ⟨side, event⟩ = none) :
        ∃ rest, (later.noting side event).journal =
          world.journal ++ ⟨side, .began callback⟩ :: rest ∧ visited rest = [] := by
      refine ⟨notes ++ [⟨side, event⟩], ?_, ?_⟩
      · change later.journal ++ _ = _
        rw [open_, List.append_assoc, List.cons_append]
      · rw [visited_append, quiet, visited, List.filterMap_cons, ends]
        rfl
    cases outcome with
    | ok value =>
      refine closed _ ?_
      cases passes value <;> rfl
    | error stop =>
      cases stop with
      | raised fault => exact closed _ rfl
      | overdue => exact ⟨_, open_, quiet⟩

/-- A callback begins at its station. -/
theorem visits_consult (side : Side) (callback : Callback σ) (passes : α → Bool)
    (behaviour : Journal σ → Answer α) :
    Visits callback.station (consult side callback passes behaviour) := by
  intro deadline world
  obtain ⟨rest, journal, _⟩ := consult_begins side callback passes behaviour deadline world
  refine ⟨_, journal, ?_⟩
  rw [visited_cons rest rfl]
  exact List.mem_cons_self

/-- What begins during a run begins whatever its errors are called. -/
theorem Visits.mapError {station : Station} {run : Run σ ε α} (change : ε → φ)
    (visits : Visits station run) : Visits station (run.mapError change) := by
  intro deadline world
  rw [mapError_world]
  exact visits deadline world

/-- What begins during a run begins with more behind it. -/
theorem Visits.bind {station : Station} {run : Run σ ε α} {next : α → Run σ ε β}
    (visits : Visits station run) (behind : ∀ value, Grows (next value)) :
    Visits station (run >>= next) := by
  intro deadline world
  obtain ⟨news, journal, member⟩ := visits deadline world
  cases ended : run deadline world with
  | mk outcome later =>
    rw [ended] at journal
    cases outcome with
    | error stop =>
      rw [bind_error ended]
      exact ⟨news, journal, member⟩
    | ok value =>
      rw [bind_ok ended]
      obtain ⟨more, grown⟩ := behind value deadline later
      refine ⟨news ++ more, ?_, ?_⟩
      · rw [grown, journal, List.append_assoc]
      · rw [visited_append]
        exact List.mem_append_left _ member

end Run

/-- What the provider and the checks of a host answer depends on nothing but what they are asked. -/
structure Host.Steady (host : Host σ) : Prop where
  provides : ∀ (past other : Journal σ) (type : String),
    host.provider past type = host.provider other type
  judges : ∀ (key : String) (checker : Checker σ), host.checker? key = some checker →
    ∀ past other question, (checker past question).result = (checker other question).result

/-- The services for some parameters, by name, at the start of a journal. -/
def Host.services (host : Host σ) (parameters : List Parameter) : Except Fault (Keyed σ) :=
  parameters.foldlM (fun services parameter => do
    let service ← host.provider [] parameter.type
    return services.insert parameter.name service) .empty

/-- Services of a steady host are settled. -/
theorem Host.Steady.settles_resolveAll {host : Host σ} (steady : host.Steady)
    (parameters : List Parameter) :
    Run.Settles (host.services parameters) (host.resolveAll parameters) := by
  unfold services resolveAll
  generalize (Keyed.empty : Keyed σ) = services
  induction parameters generalizing services with
  | nil => exact Run.settles_ofExcept (.ok services)
  | cons parameter parameters ih =>
    rw [List.foldlM_cons, List.foldlM_cons]
    have found : Run.Settles (host.provider [] parameter.type) (host.resolve parameter.type) :=
      Run.settles_consult fun past => steady.provides past [] parameter.type
    refine Run.Settles.bind ?_ fun services _ => ih services
    exact found.bind fun service _ => Run.settles_ofExcept (.ok _)

/-- The verdict of checks, asked in order up to the first denial, at the start of a journal. -/
def Gate.judge (kind : Kind) (call : Call) (services : Keyed σ) :
    List (GateCheck σ) → Except Fault Verdict
  | [] => .ok .allow
  | check :: checks => do
    let verdict ← (check.checker [] (check.question kind call services)).result
    if verdict.allowed then judge kind call services checks else return verdict

/-- The verdict of the checks of a steady host is settled. -/
theorem Host.Steady.settles_askAll {host : Host σ} (steady : host.Steady) (side : Side)
    (kind : Kind) (call : Call) (services : Keyed σ) {checks : List (GateCheck σ)}
    (registered : ∀ check ∈ checks, host.checker? check.key = some check.checker) :
    Run.Settles (Gate.judge kind call services checks)
      (Gate.askAll side kind call services checks) := by
  induction checks with
  | nil => exact Run.settles_ofExcept (.ok Verdict.allow)
  | cons check checks ih =>
    have here := registered check List.mem_cons_self
    have rest := ih fun other member => registered other (List.mem_cons_of_mem _ member)
    have asked : Run.Settles (check.checker [] (check.question kind call services)).result
        (check.ask side (check.question kind call services)) :=
      Run.settles_consult fun past => steady.judges check.key check.checker here past [] _
    refine asked.bind fun verdict _ => ?_
    by_cases allowed : verdict.allowed = true
    · rw [if_pos allowed, if_pos allowed]
      exact rest
    · rw [if_neg allowed, if_neg allowed]
      exact Run.settles_ofExcept (.ok verdict)

end DomainFactory
