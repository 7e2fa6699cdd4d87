import DomainFactory.Proofs.Itinerary
import DomainFactory.Proofs.Running

/-!
# Runs that mirror each other

Two worlds are alike when the same events are heard in them at the same time; the sides on which
they happen and the carriage of requests cannot be heard. A run mirrors another one when both do the
same in worlds that are alike, be it under one deadline or under a deadline that leaves enough time.
-/
namespace DomainFactory

variable {σ ε φ α β : Type}

/-- What is heard of an event: nothing when a request is carried. -/
def Event.heard? : Event σ → Option (Event σ)
  | .began (.dispatch _) | .passed (.dispatch _) | .stopped (.dispatch _) => none
  | event => some event

/-- The events that are heard in a journal, whichever side they happen on. -/
def heard (journal : Journal σ) : List (Event σ) :=
  journal.filterMap fun entry => entry.event.heard?

/-- The same is heard in both worlds, and it is the same time. -/
structure World.Alike (left right : World σ) : Prop where
  sound : heard left.journal = heard right.journal
  clock : left.clock = right.clock

/-- Journals are heard one after another. -/
theorem heard_append (first second : Journal σ) :
    heard (first ++ second) = heard first ++ heard second := List.filterMap_append

/-- A single event is heard or not, whichever side it happens on. -/
theorem heard_single (side : Side) (event : Event σ) :
    heard [⟨side, event⟩] = event.heard?.toList := by
  unfold heard
  rw [List.filterMap_cons]
  cases event.heard? <;> rfl

/-- Worlds stay alike when one event happens in both, whichever sides it happens on. -/
theorem World.Alike.noting {left right : World σ} (alike : left.Alike right) (here there : Side)
    (event : Event σ) : (left.noting here event).Alike (right.noting there event) := by
  refine ⟨?_, alike.clock⟩
  change heard (left.journal ++ [⟨here, event⟩]) = heard (right.journal ++ [⟨there, event⟩])
  rw [heard_append, heard_append, heard_single, heard_single, alike.sound]

/-- Worlds stay alike when an event happens in one of them that cannot be heard. -/
theorem World.Alike.silent {left right : World σ} (alike : left.Alike right) (side : Side)
    {event : Event σ} (silent : event.heard? = none) : left.Alike (right.noting side event) := by
  refine ⟨?_, alike.clock⟩
  change heard left.journal = heard (right.journal ++ [⟨side, event⟩])
  rw [heard_append, heard_single, silent, alike.sound]
  exact (List.append_nil _).symm

namespace Run

/-- Whether the time that a run takes under a deadline is enough under another one. -/
def InTime (ended : Except (Stop ε) α × World σ) (deadline other : Option Nat) : Prop :=
  deadline = other ∨
    ended.1 ≠ .error .overdue ∧ ∀ last, other = some last → ended.2.clock ≤ last

/-- Time does not go back in a run that is not overdue, and another run does the same in a world
that is alike, when it has the time. -/
structure Mirrors (left right : Run σ ε α) : Prop where
  onward : ∀ deadline world, (left deadline world).1 ≠ .error .overdue →
    world.clock ≤ (left deadline world).2.clock
  same : ∀ deadline other leftWorld rightWorld, leftWorld.Alike rightWorld →
    InTime (left deadline leftWorld) deadline other →
      (left deadline leftWorld).1 = (right other rightWorld).1 ∧
        (left deadline leftWorld).2.Alike (right other rightWorld).2

/-- Runs behind runs that mirror each other mirror each other. -/
theorem Mirrors.bind {left right : Run σ ε α} {leftNext rightNext : α → Run σ ε β}
    (first : Mirrors left right) (next : ∀ value, Mirrors (leftNext value) (rightNext value)) :
    Mirrors (left >>= leftNext) (right >>= rightNext) := by
  refine ⟨?_, ?_⟩
  · intro deadline world punctual
    have start := first.onward deadline world
    cases ended : left deadline world with
    | mk result later =>
      rw [ended] at start
      cases result with
      | error stop =>
        rw [bind_error ended] at punctual ⊢
        refine start fun late => punctual ?_
        cases late
        rfl
      | ok value =>
        rw [bind_ok ended] at punctual ⊢
        exact Nat.le_trans (start nofun) ((next value).onward deadline later punctual)
  · intro deadline other leftWorld rightWorld alike inTime
    have start := first.same deadline other leftWorld rightWorld alike
    cases ended : left deadline leftWorld with
    | mk result later =>
      cases there : right other rightWorld with
      | mk rightResult rightLater =>
        rw [ended, there] at start
        cases result with
        | error stop =>
          rw [bind_error ended] at inTime ⊢
          have timely : InTime ((.error stop, later) : Except (Stop ε) α × World σ)
              deadline other := by
            refine inTime.imp_right fun ⟨punctual, early⟩ => ⟨fun late => punctual ?_, early⟩
            cases late
            rfl
          obtain ⟨results, worlds⟩ := start timely
          cases results
          rw [bind_error there]
          exact ⟨rfl, worlds⟩
        | ok value =>
          rw [bind_ok ended] at inTime ⊢
          have timely : InTime ((.ok value, later) : Except (Stop ε) α × World σ)
              deadline other := by
            refine inTime.imp_right fun ⟨punctual, early⟩ => ⟨nofun, fun last given => ?_⟩
            exact Nat.le_trans ((next value).onward deadline later punctual) (early last given)
          obtain ⟨results, worlds⟩ := start timely
          cases results
          rw [bind_ok there]
          exact (next value).same deadline other later rightLater worlds inTime

/-- A known result mirrors itself. -/
theorem mirrors_ofExcept (result : Except ε α) :
    Mirrors (ofExcept result : Run σ ε α) (ofExcept result) := by
  cases result with
  | ok value => exact ⟨fun _ _ _ => Nat.le_refl _, fun _ _ _ _ alike _ => ⟨rfl, alike⟩⟩
  | error error => exact ⟨fun _ _ _ => Nat.le_refl _, fun _ _ _ _ alike _ => ⟨rfl, alike⟩⟩

/-- Writing an event on one side mirrors writing it on another one. -/
theorem mirrors_write (here there : Side) (event : Event σ) :
    Mirrors (write here event : Run σ ε Unit) (write there event) :=
  ⟨fun _ _ _ => Nat.le_refl _, fun _ _ _ _ alike _ => ⟨rfl, alike.noting here there event⟩⟩

/-- A run that waits within its deadline goes on later. -/
theorem wait_early {milliseconds : Nat} {deadline : Option Nat} {world : World σ}
    (early : ∀ last, deadline = some last → world.clock + milliseconds ≤ last) :
    (wait milliseconds : Run σ ε Unit) deadline world =
      (.ok (), { world with clock := world.clock + milliseconds }) := by
  unfold wait
  cases deadline with
  | none => rfl
  | some last => simp only [early last rfl, ↓reduceIte]

/-- A run that would wait beyond its deadline is overdue. -/
theorem wait_late {milliseconds last : Nat} {world : World σ}
    (late : ¬ world.clock + milliseconds ≤ last) :
    (wait milliseconds : Run σ ε Unit) (some last) world =
      (.error .overdue, { world with clock := last }) := by
  unfold wait
  simp only [late, ↓reduceIte]

/-- A run that is not overdue has waited within its deadline. -/
theorem early_of_wait {milliseconds : Nat} {deadline : Option Nat} {world : World σ}
    (punctual : ((wait milliseconds : Run σ ε Unit) deadline world).1 ≠ .error .overdue) :
    ∀ last, deadline = some last → world.clock + milliseconds ≤ last := by
  intro last given
  subst given
  refine Decidable.byContradiction fun late => ?_
  rw [wait_late late] at punctual
  exact punctual rfl

/-- Waiting mirrors itself. -/
theorem mirrors_wait (milliseconds : Nat) :
    Mirrors (wait milliseconds : Run σ ε Unit) (wait milliseconds) := by
  refine ⟨?_, ?_⟩
  · intro deadline world punctual
    rw [wait_early (early_of_wait punctual)]
    exact Nat.le_add_right _ _
  · intro deadline other leftWorld rightWorld alike inTime
    by_cases punctual :
        ((wait milliseconds : Run σ ε Unit) deadline leftWorld).1 = .error .overdue
    · rcases inTime with rfl | ⟨never, _⟩
      · cases deadline with
        | none => cases punctual
        | some last =>
          have late : ¬ leftWorld.clock + milliseconds ≤ last := by
            intro early
            rw [wait_early fun _ given => Option.some.inj given ▸ early] at punctual
            cases punctual
          have late' := late
          rw [alike.clock] at late'
          rw [wait_late late, wait_late late']
          exact ⟨rfl, alike.sound, rfl⟩
      · exact absurd punctual never
    · have early := early_of_wait punctual
      rw [wait_early early] at inTime ⊢
      have soon : ∀ last, other = some last → rightWorld.clock + milliseconds ≤ last := by
        intro last given
        rw [← alike.clock]
        rcases inTime with same | ⟨_, enough⟩
        · exact early last (same.trans given)
        · exact enough last given
      rw [wait_early soon]
      exact ⟨rfl, alike.sound, congrArg (· + milliseconds) alike.clock⟩

/-- Running code on one side mirrors running it on another one, moment by moment. -/
theorem mirrors_live (here there : Side) (moment : Moment) :
    Mirrors (live here moment : Run σ ε Unit) (live there moment) := by
  cases moment with
  | pause milliseconds => exact mirrors_wait milliseconds
  | note text => exact mirrors_write here there (.noted text)

/-- Running code on one side mirrors running it on another one. -/
theorem mirrors_play (here there : Side) (answer : Answer α) :
    Mirrors (play here answer : Run σ Fault α) (play there answer) := by
  have moments : ∀ list : List Moment, Mirrors (list.forM (live here) : Run σ Fault PUnit)
      (list.forM (live there)) := by
    intro list
    induction list with
    | nil => exact mirrors_ofExcept (.ok ())
    | cons moment list ih =>
      change Mirrors (live here moment >>= fun _ => list.forM (live here))
        (live there moment >>= fun _ => list.forM (live there))
      exact (mirrors_live here there moment).bind fun _ => ih
  exact (moments answer.moments).bind fun _ => mirrors_ofExcept answer.result

/-- Runs mirror each other when their results are changed alike, as long as just what was overdue
stays so. -/
theorem Mirrors.change {left right : Run σ ε α} {leftBehind rightBehind : Run σ φ β}
    (mirrors : Mirrors left right) (change : Except (Stop ε) α → Except (Stop φ) β)
    (overdue : ∀ result, change result = .error .overdue ↔ result = .error .overdue)
    (leftChanged : ∀ deadline world, leftBehind deadline world =
      (change (left deadline world).1, (left deadline world).2))
    (rightChanged : ∀ deadline world, rightBehind deadline world =
      (change (right deadline world).1, (right deadline world).2)) :
    Mirrors leftBehind rightBehind := by
  refine ⟨?_, ?_⟩
  · intro deadline world punctual
    rw [leftChanged] at punctual ⊢
    exact mirrors.onward deadline world fun late => punctual ((overdue _).mpr late)
  · intro deadline other leftWorld rightWorld alike inTime
    rw [leftChanged] at inTime ⊢
    rw [rightChanged]
    have timely : InTime (left deadline leftWorld) deadline other :=
      inTime.imp_right fun ⟨punctual, early⟩ =>
        ⟨fun late => punctual ((overdue _).mpr late), early⟩
    obtain ⟨results, worlds⟩ := mirrors.same deadline other leftWorld rightWorld alike timely
    exact ⟨congrArg change results, worlds⟩

/-- Runs whose errors are changed alike mirror each other. -/
theorem Mirrors.mapError {left right : Run σ ε α} (change : ε → φ) (mirrors : Mirrors left right) :
    Mirrors (left.mapError change) (right.mapError change) := by
  have changed (run : Run σ ε α) (deadline : Option Nat) (world : World σ) :
      run.mapError change deadline world =
        ((run deadline world).1.mapError (Stop.map change), (run deadline world).2) := by
    unfold Run.mapError
    rcases run deadline world with ⟨_ | _, _⟩ <;> rfl
  refine mirrors.change (Except.mapError (Stop.map change)) ?_ (changed left) (changed right)
  intro result
  match result with
  | .ok value => exact ⟨nofun, nofun⟩
  | .error (.raised error) => exact ⟨nofun, nofun⟩
  | .error .overdue => exact ⟨fun _ => rfl, fun _ => rfl⟩

/-- A result whose error is a value. -/
def attempted : Except (Stop ε) α → Except (Stop φ) (Except ε α)
  | .ok value => .ok (.ok value)
  | .error (.raised error) => .ok (.error error)
  | .error .overdue => .error .overdue

/-- Runs whose errors are values mirror each other. -/
theorem Mirrors.attempt {left right : Run σ ε α} (mirrors : Mirrors left right) :
    Mirrors (left.attempt : Run σ φ (Except ε α)) right.attempt := by
  have changed (run : Run σ ε α) (deadline : Option Nat) (world : World σ) :
      (run.attempt : Run σ φ (Except ε α)) deadline world =
        (attempted (run deadline world).1, (run deadline world).2) := by
    unfold Run.attempt
    rcases run deadline world with ⟨(_ | _) | _, _⟩ <;> rfl
  refine mirrors.change attempted ?_ (changed left) (changed right)
  intro result
  match result with
  | .ok value => exact ⟨nofun, nofun⟩
  | .error (.raised error) => exact ⟨nofun, nofun⟩
  | .error .overdue => exact ⟨fun _ => rfl, fun _ => rfl⟩

/-- A callback on one side mirrors the callback on another one, when the code behind it is the
same. -/
theorem mirrors_enclose (here there : Side) (callback : Callback σ) (passes : α → Bool)
    {left right : Run σ Fault α} (mirrors : Mirrors left right) :
    Mirrors (enclose here callback passes left) (enclose there callback passes right) := by
  unfold enclose
  refine (mirrors_write here there _).bind fun _ => mirrors.attempt.bind fun ended => ?_
  cases ended with
  | ok value =>
    exact (mirrors_write here there _).bind fun _ => mirrors_ofExcept (.ok value)
  | error fault =>
    exact (mirrors_write here there _).bind fun _ => mirrors_ofExcept (.error fault)

/-- A callback on one side mirrors the callback on another one, when the code behind it answers
alike after all that sounds alike. -/
theorem mirrors_consult (here there : Side) (callback : Callback σ) (passes : α → Bool)
    {left right : Journal σ → Answer α}
    (agree : ∀ leftPast rightPast, heard leftPast = heard rightPast →
      left leftPast = right rightPast) :
    Mirrors (consult here callback passes left) (consult there callback passes right) := by
  refine ⟨?_, ?_⟩
  · intro deadline world punctual
    exact (mirrors_enclose here here callback passes
      (mirrors_play here here (left world.journal))).onward deadline world punctual
  · intro deadline other leftWorld rightWorld alike inTime
    have played : Mirrors (play here (left leftWorld.journal) : Run σ Fault α)
        (play there (right rightWorld.journal)) := by
      rw [agree _ _ alike.sound]
      exact mirrors_play here there _
    exact (mirrors_enclose here there callback passes played).same deadline other leftWorld
      rightWorld alike inTime

/-- Whether a run ends within a time limit, and is not overdue. -/
def EndsWithin (limit : Nat) (run : Run σ ε α) (deadline : Option Nat) (world : World σ) : Prop :=
  (run deadline world).1 ≠ .error .overdue ∧ (run deadline world).2.clock ≤ world.clock + limit

/-- A run that ends within a time limit has the time to do so under the sooner deadline. -/
theorem EndsWithin.inTime {limit : Nat} {run : Run σ ε α} {deadline : Option Nat}
    {left right : World σ} (ends : EndsWithin limit run deadline left)
    (clock : left.clock = right.clock) :
    InTime (run deadline left) deadline (some (sooner limit deadline right)) := by
  obtain ⟨punctual, early⟩ := ends
  rw [clock] at early
  unfold sooner
  cases deadline with
  | none =>
    refine Or.inr ⟨punctual, fun last given => ?_⟩
    cases given
    exact early
  | some first =>
    by_cases before : first ≤ right.clock + limit
    · exact Or.inl (congrArg some (Nat.min_eq_right before).symm)
    · refine Or.inr ⟨punctual, fun last given => ?_⟩
      cases given
      rw [Option.map_some, Option.getD_some, Nat.min_eq_left (Nat.le_of_not_le before)]
      exact early

/-- A run ends within a time limit when it does so together with a conclusion from its value. -/
theorem EndsWithin.of_conclude {limit : Nat} {run : Run σ ε α} {conclude : α → Except ε β}
    {deadline : Option Nat} {world : World σ}
    (ends : EndsWithin limit (run >>= fun value => ofExcept (conclude value)) deadline world) :
    EndsWithin limit run deadline world := by
  obtain ⟨punctual, early⟩ := ends
  rw [conclude_world] at early
  refine ⟨fun late => punctual ?_, early⟩
  rw [conclude_result, late]
  rfl

end Run

end DomainFactory
