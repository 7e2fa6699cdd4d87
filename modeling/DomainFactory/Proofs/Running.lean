import Mathlib.Data.List.Forall2
import DomainFactory.Path

/-!
# Evaluation of runs

What a composed run gives and leaves behind, from what its parts give and leave behind, and what a
step that may fail gives for a list, from what it gives for each item.
-/
namespace DomainFactory

variable {σ ε φ α β : Type}

/-- A result of two steps is that of the second behind the first. -/
theorem Except.bind_eq_ok {result : Except ε α} {next : α → Except ε β} {value : β}
    (given : (result >>= next) = .ok value) :
    ∃ first, result = .ok first ∧ next first = .ok value := by
  cases result with
  | error error => cases given
  | ok first => exact ⟨first, rfl, given⟩

/-- Where results are related to items in order, each result is related to some item. -/
theorem exists_of_forall₂ {related : α → β → Prop} {items : List α} {results : List β}
    (matched : List.Forall₂ related items results) {result : β} (member : result ∈ results) :
    ∃ item ∈ items, related item result := by
  induction matched with
  | nil => exact absurd member List.not_mem_nil
  | cons first _ ih =>
    rcases List.mem_cons.mp member with rfl | later
    · exact ⟨_, List.mem_cons_self, first⟩
    · obtain ⟨item, among, found⟩ := ih later
      exact ⟨item, List.mem_cons_of_mem _ among, found⟩

/-- A step that may fail succeeds for the items of a list when it does for each of them, and gives
what it gives for each, in order. -/
theorem Except.mapM_eq_ok {step : α → Except ε β} {items : List α} {results : List β} :
    items.mapM step = .ok results ↔
      List.Forall₂ (fun item result => step item = .ok result) items results := by
  induction items generalizing results with
  | nil =>
    rw [List.forall₂_nil_left_iff]
    exact ⟨fun made => (Except.ok.inj made).symm, fun none => none ▸ rfl⟩
  | cons item items ih =>
    rw [List.forall₂_cons_left_iff, List.mapM_cons]
    constructor
    · intro made
      obtain ⟨first, stepped, rest⟩ := Except.bind_eq_ok made
      obtain ⟨more, others, given⟩ := Except.bind_eq_ok rest
      exact ⟨first, more, stepped, ih.mp others, (Except.ok.inj given).symm⟩
    · rintro ⟨first, more, stepped, others, rfl⟩
      rw [stepped, ih.mpr others]
      rfl

/-- A step that may come to nothing comes to something for the items of a list when it does for each
of them, and then to what it comes to for each, in order. -/
theorem Option.mapM_eq_some {step : α → Option β} {items : List α} {results : List β} :
    items.mapM step = some results ↔
      List.Forall₂ (fun item result => step item = some result) items results := by
  induction items generalizing results with
  | nil =>
    rw [List.forall₂_nil_left_iff]
    exact ⟨fun made => (Option.some.inj made).symm, fun none => none ▸ rfl⟩
  | cons item items ih =>
    rw [List.forall₂_cons_left_iff, List.mapM_cons]
    constructor
    · intro made
      obtain ⟨first, stepped, rest⟩ := Option.bind_eq_some_iff.mp made
      obtain ⟨more, others, given⟩ := Option.bind_eq_some_iff.mp rest
      exact ⟨first, more, stepped, ih.mp others, (Option.some.inj given).symm⟩
    · rintro ⟨first, more, stepped, others, rfl⟩
      rw [stepped, ih.mpr others]
      rfl

/-- What a step comes to for each item of a list, it comes to for the list. -/
theorem Option.mapM_eq_map {step : α → Option β} {result : α → β} {items : List α}
    (steps : ∀ item ∈ items, step item = some (result item)) :
    items.mapM step = some (items.map result) :=
  Option.mapM_eq_some.mpr (List.forall₂_map_right_iff.mpr (List.forall₂_same.mpr steps))

/-- The world with one more entry in its journal. -/
def World.noting (world : World σ) (side : Side) (event : Event σ) : World σ :=
  { world with journal := world.journal ++ [⟨side, event⟩] }

namespace Run

variable {run : Run σ ε α} {deadline : Option Nat} {world later : World σ}

/-- A run behind one that gives a value. -/
theorem bind_ok {next : α → Run σ ε β} {value : α}
    (ended : run deadline world = (.ok value, later)) :
    (run >>= next) deadline world = next value deadline later := by
  change Run.bind run next deadline world = _
  unfold Run.bind
  rw [ended]

/-- A run behind one that gives no value. -/
theorem bind_error {next : α → Run σ ε β} {stop : Stop ε}
    (ended : run deadline world = (.error stop, later)) :
    (run >>= next) deadline world = (.error stop, later) := by
  change Run.bind run next deadline world = _
  unfold Run.bind
  rw [ended]

/-- Behind a value of two runs stands a value of the first, and the second gave the rest. -/
theorem bind_eq_ok {next : α → Run σ ε β} {value : β} {last : World σ}
    (given : (run >>= next) deadline world = (.ok value, last)) :
    ∃ first later, run deadline world = (.ok first, later) ∧
      next first deadline later = (.ok value, last) := by
  cases ended : run deadline world with
  | mk outcome later =>
    cases outcome with
    | error stop =>
      rw [bind_error ended] at given
      cases given
    | ok first =>
      rw [bind_ok ended] at given
      exact ⟨first, later, rfl, given⟩

/-- The run of a known result gives that result and leaves the world as it is. -/
theorem ofExcept_eq_ok {result : Except ε α} {value : α}
    (given : (ofExcept result : Run σ ε α) deadline world = (.ok value, later)) :
    result = .ok value ∧ later = world := by
  cases result with
  | error error => cases given
  | ok first =>
    cases given
    exact ⟨rfl, rfl⟩

/-- Runs one after another can be grouped either way. -/
theorem bind_assoc {γ : Type} (run : Run σ ε α) (next : α → Run σ ε β) (last : β → Run σ ε γ) :
    (run >>= next) >>= last = run >>= fun value => next value >>= last := by
  funext deadline world
  cases ended : run deadline world with
  | mk result later =>
    cases result with
    | error stop =>
      rw [bind_error (bind_error ended), bind_error ended]
    | ok value =>
      rw [bind_ok ended]
      cases then_ : next value deadline later with
      | mk result last =>
        cases result with
        | error stop => rw [bind_error ((bind_ok ended).trans then_), bind_error then_]
        | ok value => rw [bind_ok ((bind_ok ended).trans then_), bind_ok then_]

/-- Concluding from the value of a run changes nothing that the run leaves behind. -/
theorem conclude_world (conclude : α → Except ε β) :
    ((run >>= fun value => ofExcept (conclude value)) deadline world).2 =
      (run deadline world).2 := by
  cases ended : run deadline world with
  | mk result later =>
    cases result with
    | error stop => rw [bind_error ended]
    | ok value =>
      rw [bind_ok ended]
      cases conclude value <;> rfl

/-- Concluding from the value of a run changes just that value. -/
theorem conclude_result (conclude : α → Except ε β) :
    ((run >>= fun value => ofExcept (conclude value)) deadline world).1 =
      (run deadline world).1 >>= fun value => (conclude value).mapError Stop.raised := by
  cases ended : run deadline world with
  | mk result later =>
    cases result with
    | error stop =>
      rw [bind_error ended]
      rfl
    | ok value =>
      rw [bind_ok ended]
      change ((ofExcept (conclude value) : Run σ ε β) deadline later).1 =
        (conclude value).mapError Stop.raised
      cases conclude value <;> rfl

/-- Changing the error of a run changes nothing that it leaves behind. -/
theorem mapError_world (change : ε → φ) :
    (run.mapError change deadline world).2 = (run deadline world).2 := by
  unfold mapError
  rcases run deadline world with ⟨_ | _, _⟩ <;> rfl

/-- Changing the error of a run changes none of its values. -/
theorem mapError_eq_ok {change : ε → φ} {value : α} :
    (run.mapError change deadline world).1 = .ok value ↔ (run deadline world).1 = .ok value := by
  unfold mapError
  rcases run deadline world with ⟨_ | _, _⟩
  · simp only [reduceCtorEq]
  · simp only [Except.ok.injEq]

/-- The deadline of a run with a time limit: the limit counted from now, or an earlier deadline. -/
def sooner (limit : Nat) (deadline : Option Nat) (world : World σ) : Nat :=
  (deadline.map (min (world.clock + limit))).getD (world.clock + limit)

/-- A deadline sooner than the limit is the earlier deadline. -/
theorem eq_sooner {limit : Nat}
    (earlier : sooner limit deadline world ≠ world.clock + limit) :
    deadline = some (sooner limit deadline world) := by
  unfold sooner at earlier ⊢
  cases deadline with
  | none => exact absurd rfl earlier
  | some deadline =>
    simp only [Option.map_some, Option.getD_some, Option.some.injEq] at earlier ⊢
    omega

/-- A run with a time limit leaves behind what it leaves behind with the sooner deadline. -/
theorem within_world {run : Run σ Failure α} (limit : Nat) :
    (run.within limit deadline world).2 = (run (some (sooner limit deadline world)) world).2 := by
  unfold within sooner
  dsimp only
  split
  next ended => rw [ended]
  next => rfl

/-- A run with a time limit that is not overdue then gives what it gives with the sooner deadline.
-/
theorem within_punctual {run : Run σ Failure α} {limit : Nat}
    (punctual : (run (some (sooner limit deadline world)) world).1 ≠ .error .overdue) :
    run.within limit deadline world = run (some (sooner limit deadline world)) world := by
  unfold within
  dsimp only
  split
  next later ended =>
    refine absurd ?_ punctual
    unfold sooner
    rw [ended]
  next => rfl

/-- A run with a time limit that is overdue fails when its limit has come, and is overdue when an
earlier deadline has. -/
theorem within_overdue {run : Run σ Failure α} {limit : Nat}
    (ended : run (some (sooner limit deadline world)) world = (.error .overdue, later)) :
    run.within limit deadline world =
      (.error (if sooner limit deadline world = world.clock + limit then .raised (.timeout limit)
        else .overdue), later) := by
  unfold within
  unfold sooner at ended ⊢
  dsimp only
  rw [ended]

/-- A callback runs between its entries; one that is overdue has no second entry. -/
theorem enclose_apply (side : Side) (callback : Callback σ) (passes : α → Bool)
    (run : Run σ Fault α) (deadline : Option Nat) (world : World σ) :
    enclose side callback passes run deadline world =
      match run deadline (world.noting side (.began callback)) with
      | (.ok value, later) => (.ok value, later.noting side
          (if passes value then .passed callback else .stopped callback))
      | (.error (.raised fault), later) =>
        (.error (.raised fault), later.noting side (.stopped callback))
      | (.error .overdue, later) => (.error .overdue, later) := by
  have first : write side (.began callback) deadline world =
      ((.ok () : Except (Stop Fault) Unit), world.noting side (.began callback)) := rfl
  unfold enclose
  rw [bind_ok first]
  cases ended : run deadline (world.noting side (.began callback)) with
  | mk result later =>
    match result with
    | .ok value =>
      have attempted : (attempt run : Run σ Fault _) deadline
          (world.noting side (.began callback)) = (.ok (.ok value), later) := by
        unfold attempt
        rw [ended]
      rw [bind_ok attempted]
      rfl
    | .error (.raised fault) =>
      have attempted : (attempt run : Run σ Fault _) deadline
          (world.noting side (.began callback)) = (.ok (.error fault), later) := by
        unfold attempt
        rw [ended]
      rw [bind_ok attempted]
      rfl
    | .error .overdue =>
      have attempted : (attempt run : Run σ Fault _) deadline
          (world.noting side (.began callback)) = (.error .overdue, later) := by
        unfold attempt
        rw [ended]
      rw [bind_error attempted]

end Run

/-- A call on the path to another side carries a request of its own between the entries of the
dispatch. -/
theorem Path.remote_apply (side : Side) (id : String) (dispatcher : Dispatcher σ) (call : Call)
    (deadline : Option Nat) (world : World σ) :
    ∃ request : Request, request.operation = id ∧ request.call = call ∧
      remote side id dispatcher call deadline world =
        (Run.mapError Fault.recovered (.enclose side (.dispatch request) (fun _ => true)
          (dispatcher request)) >>= fun response => Run.ofExcept (.ok response.reply))
            deadline world :=
  ⟨⟨_, id, call.target, call.arguments⟩, rfl, rfl, rfl⟩

end DomainFactory
