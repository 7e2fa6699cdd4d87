import DomainFactory.Proofs.Handling

/-!
# How methods end

A method gives a reply unless code of its host raises a fault or time runs out, and each reply is
down to what that code answered: a check that denied, or the one handler that ran behind checks none
of which denied. A method that runs on another side ends as it does there, between the entries of
the dispatch, or because its time limit has passed.
-/
namespace DomainFactory

variable {σ ε φ α β : Type}

/-- Between two worlds a callback began on a side, and the journal told just the past until then. -/
structure World.Began (world later : World σ) (side : Side) (callback : Callback σ)
    (past : Journal σ) : Prop where
  behind : world.journal <+: past
  ahead : past ++ [⟨side, .began callback⟩] <+: later.journal

namespace World.Began

variable {world later first last : World σ} {side : Side} {callback : Callback σ}
  {past : Journal σ}

/-- What began between two worlds began between worlds around them. -/
theorem around (began : world.Began later side callback past)
    (before : first.journal <+: world.journal) (behind : later.journal <+: last.journal) :
    first.Began last side callback past :=
  ⟨before.trans began.behind, began.ahead.trans behind⟩

/-- What began between two worlds is an entry among what was added. -/
theorem split {news : Journal σ} (began : world.Began later side callback past)
    (added : later.journal = world.journal ++ news) : ∃ early late,
      past = world.journal ++ early ∧ news = early ++ ⟨side, .began callback⟩ :: late := by
  obtain ⟨early, rfl⟩ := began.behind
  obtain ⟨late, whole⟩ := began.ahead
  rw [added, List.append_assoc, List.append_assoc, List.append_cancel_left_eq] at whole
  exact ⟨early, late, rfl, whole.symm⟩

/-- An entry among what was added began. -/
theorem of_split {news early late : Journal σ} (added : later.journal = world.journal ++ news)
    (here : news = early ++ ⟨side, .began callback⟩ :: late) :
    world.Began later side callback (world.journal ++ early) := by
  refine ⟨List.prefix_append _ _, late, ?_⟩
  rw [added, here, List.append_assoc, List.append_assoc, List.singleton_append]

end World.Began

/-- Where callbacks begin at one marked station at most, two of them that begin at marked stations
are one. -/
theorem World.Began.once {world later : World σ} {news : Journal σ} {marked : Station → Bool}
    (added : later.journal = world.journal ++ news) (once : (visited news).countP marked ≤ 1)
    {here there : Side} {first second : Callback σ} {past other : Journal σ}
    (began : world.Began later here first past) (again : world.Began later there second other)
    (mark : marked first.station = true) (same : marked second.station = true) :
    past = other ∧ first = second := by
  obtain ⟨early, late, rfl, split⟩ := began.split added
  obtain ⟨before, after, rfl, cut⟩ := again.split added
  -- Two marked callbacks one behind the other would be one too many.
  have apart {ahead between behind : Journal σ} {left right : Entry σ} {one two : Callback σ}
      (whole : news = ahead ++ left :: (between ++ right :: behind))
      (begins : left.begun? = some one) (follows : right.begun? = some two)
      (oneMark : marked one.station = true) (twoMark : marked two.station = true) : False := by
    rw [whole, visited_append, visited_cons _ begins, visited_append, visited_cons _ follows]
      at once
    simp only [List.countP_append, List.countP_cons, oneMark, twoMark, ↓reduceIte] at once
    omega
  rcases split_append (split.symm.trans cut) with ⟨rest, ahead, _⟩ | ⟨rest, ahead, behind⟩
  · rw [ahead, List.append_assoc, List.cons_append] at split
    exact (apart split rfl rfl same mark).elim
  · cases rest with
    | nil =>
      rw [List.append_nil] at ahead
      obtain ⟨entry, _⟩ := List.cons.inj behind
      cases entry
      exact ⟨by rw [ahead], rfl⟩
    | cons head rest =>
      obtain ⟨rfl, _⟩ := List.cons.inj behind
      rw [ahead, List.append_assoc, List.cons_append] at cut
      exact (apart cut rfl rfl mark same).elim

namespace Host

/-- Whether the code behind a callback, after all that has happened, raises a fault. Nothing of the
host answers a request. -/
def Faults (host : Host σ) (past : Journal σ) (fault : Fault) : Callback σ → Prop
  | .resolve type => host.provider past type = .error fault
  | .check question => ∃ checker, host.checker? question.key = some checker ∧
      (checker past question).result = .error fault
  | .before operation target => (host.hooks.before past operation target).result = .error fault
  | .handler key invocation => ∃ handler, host.handler? key = some handler ∧
      (handler past invocation).result = .error fault
  | .after operation output => (host.hooks.after past operation output).result = .error fault
  | .dispatch _ => False

/-- Between two worlds code of a host raised a fault. -/
def Raised (host : Host σ) (fault : Fault) (world later : World σ) : Prop :=
  ∃ callback past, host.Faults past fault callback ∧ world.Began later host.side callback past

/-- Between two worlds the check with a key was asked on the side of a host and denied. -/
def Refused (host : Host σ) (key : String) (verdict : Verdict) (world later : World σ) : Prop :=
  ∃ question checker past, question.key = key ∧ host.checker? key = some checker ∧
    (checker past question).result = .ok verdict ∧ verdict.allowed = false ∧
    world.Began later host.side (.check question) past

variable {host : Host σ} {world later first last : World σ}

/-- What was raised between two worlds was raised between worlds around them. -/
theorem Raised.around {fault : Fault} (raised : host.Raised fault world later)
    (before : first.journal <+: world.journal) (behind : later.journal <+: last.journal) :
    host.Raised fault first last := by
  obtain ⟨callback, past, faults, began⟩ := raised
  exact ⟨callback, past, faults, began.around before behind⟩

/-- A check that denied between two worlds denied between worlds around them. -/
theorem Refused.around {key : String} {verdict : Verdict}
    (refused : host.Refused key verdict world later) (before : first.journal <+: world.journal)
    (behind : later.journal <+: last.journal) : host.Refused key verdict first last := by
  obtain ⟨question, checker, past, named, registered, answered, denied, began⟩ := refused
  exact ⟨question, checker, past, named, registered, answered, denied, began.around before behind⟩

/-- No check denies on the way to what completes. -/
theorem Refused.not_completes {key : String} {verdict : Verdict} {news : Journal σ}
    {stations : List Station} (refused : host.Refused key verdict world later)
    (added : later.journal = world.journal ++ news) :
    ¬ Completes host world.journal stations news := by
  intro complete
  obtain ⟨question, checker, past, rfl, registered, answered, denied, began⟩ := refused
  obtain ⟨early, late, rfl, split⟩ := began.split added
  obtain ⟨other, same, again, granted, allowed⟩ :=
    (complete.cleared early _ late _ split rfl).grants
  cases registered.symm.trans same
  cases answered.symm.trans granted
  rw [denied] at allowed
  cases allowed

/-- A handler that ran just once gave one completion. -/
theorem Ran.unique {key : String} {invocation other : Invocation σ} {completion again : Completion}
    {news : Journal σ} (ran : host.Ran key invocation completion world later)
    (ranAgain : host.Ran key other again world later)
    (added : later.journal = world.journal ++ news)
    (once : (visited news).countP Station.isHandler ≤ 1) : again = completion := by
  obtain ⟨handler, past, handled, gave, behind, ahead⟩ := ran
  obtain ⟨same, then_, handledAgain, gaveAgain, behindAgain, aheadAgain⟩ := ranAgain
  obtain ⟨rfl, calls⟩ := World.Began.once added once ⟨behind, ahead⟩ ⟨behindAgain, aheadAgain⟩
    rfl rfl
  cases calls
  cases handled.symm.trans handledAgain
  exact Except.ok.inj (gaveAgain.symm.trans gave)

/-- How a run on the side of a host can end: with a value, because code of the host raised a fault,
which the run calls by some name, or because its deadline has come. -/
inductive Outcome (host : Host σ) (called : Fault → ε) (deadline : Option Nat)
    (world later : World σ) (holds : α → Prop) : Except (Stop ε) α → Prop
  /-- It gave a value. -/
  | gave {value : α} (held : holds value) :
      Outcome host called deadline world later holds (.ok value)
  /-- Code of the host raised a fault. -/
  | raised {fault : Fault} (raised : host.Raised fault world later) :
      Outcome host called deadline world later holds (.error (.raised (called fault)))
  /-- It would have waited beyond its deadline. -/
  | overdue (expired : deadline = some later.clock) :
      Outcome host called deadline world later holds (.error .overdue)

/-- The run adds to the journal and ends in one of the ways in which it can end on the side of a
host, with a value that fits what happened. -/
def Accounts (host : Host σ) (called : Fault → ε) (holds : World σ → World σ → α → Prop)
    (run : Run σ ε α) : Prop :=
  ∀ deadline world, world.journal <+: (run deadline world).2.journal ∧
    host.Outcome called deadline world (run deadline world).2
      (holds world (run deadline world).2) (run deadline world).1

end Host

namespace Run

/-- The run is overdue at its deadline only. -/
def Expires (run : Run σ ε α) : Prop :=
  ∀ deadline world, (run deadline world).1 = .error .overdue →
    deadline = some (run deadline world).2.clock

/-- A known result is not overdue. -/
theorem expires_ofExcept (result : Except ε α) : Expires (ofExcept result : Run σ ε α) := by
  intro deadline world overdue
  cases result <;> cases overdue

/-- One run after another is overdue at the deadline of both. -/
theorem Expires.bind {run : Run σ ε α} {next : α → Run σ ε β} (first : Expires run)
    (behind : ∀ value, Expires (next value)) : Expires (run >>= next) := by
  intro deadline world
  have expires := first deadline world
  cases ended : run deadline world with
  | mk result later =>
    rw [ended] at expires
    cases result with
    | ok value =>
      rw [bind_ok ended]
      exact behind value deadline later
    | error stop =>
      rw [bind_error ended]
      intro overdue
      cases overdue
      exact expires rfl

/-- Running code is overdue at its deadline. -/
theorem expires_play (side : Side) (answer : Answer α) :
    Expires (play side answer : Run σ Fault α) := by
  have lives (moment : Moment) : Expires (live side moment : Run σ Fault Unit) := by
    intro deadline world overdue
    cases moment with
    | note text => cases overdue
    | pause milliseconds =>
      unfold live wait at overdue ⊢
      cases deadline with
      | none => cases overdue
      | some deadline =>
        by_cases early : world.clock + milliseconds ≤ deadline
        · simp only [early, ↓reduceIte, reduceCtorEq] at overdue
        · simp only [early, ↓reduceIte]
  have moments : ∀ list : List Moment,
      Expires (list.forM (live side) : Run σ Fault PUnit) := by
    intro list
    induction list with
    | nil => exact expires_ofExcept (.ok _)
    | cons moment list ih => exact (lives moment).bind fun _ => ih
  exact (moments answer.moments).bind fun _ => expires_ofExcept answer.result

/-- A callback is overdue when its run is. -/
theorem Expires.enclose {side : Side} {callback : Callback σ} {passes : α → Bool}
    {run : Run σ Fault α} (expires : Expires run) :
    Expires (enclose side callback passes run) := by
  intro deadline world
  have inner := expires deadline (world.noting side (.began callback))
  rw [enclose_apply]
  cases ended : run deadline (world.noting side (.began callback)) with
  | mk result later =>
    rw [ended] at inner
    match result with
    | .ok value => exact nofun
    | .error (.raised fault) => exact nofun
    | .error .overdue => exact inner

end Run

namespace Host

variable {host : Host σ} {called : Fault → ε} {holds : World σ → World σ → α → Prop}

/-- A value accounts for itself. -/
theorem accounts_pure {value : α} (held : ∀ world, holds world world value) :
    host.Accounts called holds (Run.pure value) :=
  fun _ world => ⟨List.prefix_rfl, .gave (held world)⟩

/-- The values of a run fit whatever follows from how the run gave them. -/
theorem Accounts.imp {more : World σ → World σ → α → Prop} {run : Run σ ε α}
    (accounts : host.Accounts called holds run)
    (implies : ∀ {deadline world later value}, run deadline world = (.ok value, later) →
      holds world later value → more world later value) : host.Accounts called more run := by
  intro deadline world
  obtain ⟨grows, outcome⟩ := accounts deadline world
  refine ⟨grows, ?_⟩
  cases ended : run deadline world with
  | mk result later =>
    rw [ended] at outcome
    cases outcome with
    | gave held => exact .gave (implies ended held)
    | raised raised => exact .raised raised
    | overdue expired => exact .overdue expired

/-- A run accounts for its values whatever its errors are called. -/
theorem Accounts.mapError {run : Run σ ε α} (change : ε → φ)
    (accounts : host.Accounts called holds run) :
    host.Accounts (fun fault => change (called fault)) holds (run.mapError change) := by
  intro deadline world
  obtain ⟨grows, outcome⟩ := accounts deadline world
  unfold Run.mapError
  cases ended : run deadline world with
  | mk result later =>
    rw [ended] at grows outcome
    cases outcome with
    | gave held => exact ⟨grows, .gave held⟩
    | raised raised => exact ⟨grows, .raised raised⟩
    | overdue expired => exact ⟨grows, .overdue expired⟩

/-- One run after another accounts for its values when both do. -/
theorem Accounts.bind {through : World σ → World σ → α → Prop} {more : World σ → World σ → β → Prop}
    {run : Run σ ε α} {next : α → Run σ ε β} (first : host.Accounts called through run)
    (behind : ∀ value, host.Accounts called
      (fun middle later result => ∀ world, world.journal <+: middle.journal →
        through world middle value → more world later result) (next value)) :
    host.Accounts called more (run >>= next) := by
  intro deadline world
  obtain ⟨grows, outcome⟩ := first deadline world
  cases ended : run deadline world with
  | mk result middle =>
    rw [ended] at grows outcome
    cases outcome with
    | raised raised =>
      rw [Run.bind_error ended]
      exact ⟨grows, .raised raised⟩
    | overdue expired =>
      rw [Run.bind_error ended]
      exact ⟨grows, .overdue expired⟩
    | @gave value held =>
      rw [Run.bind_ok ended]
      obtain ⟨further, outcome⟩ := behind value deadline middle
      refine ⟨grows.trans further, ?_⟩
      cases last : next value deadline middle with
      | mk result later =>
        rw [last] at further outcome
        cases outcome with
        | gave holding => exact .gave (holding world grows held)
        | raised raised => exact .raised (raised.around grows List.prefix_rfl)
        | overdue expired => exact .overdue expired

/-- One run after another is stopped by nothing else when neither is. -/
theorem Accounts.then {through : World σ → World σ → α → Prop} {run : Run σ ε α}
    {next : α → Run σ ε β} (first : host.Accounts called through run)
    (behind : ∀ value, host.Accounts called (fun _ _ _ => True) (next value)) :
    host.Accounts called (fun _ _ _ => True) (run >>= next) :=
  first.bind fun value => (behind value).imp fun _ _ _ _ _ => trivial

/-- A callback accounts for what the code of the host behind it answers. -/
theorem accounts_consult {callback : Callback σ} {passes : α → Bool}
    {behaviour : Journal σ → Answer α} (faults : ∀ past fault,
      (behaviour past).result = .error fault → host.Faults past fault callback) :
    host.Accounts id (fun world later value => (behaviour world.journal).result = .ok value ∧
        world.Began later host.side callback world.journal)
      (Run.consult host.side callback passes behaviour) := by
  intro deadline world
  have settled := Run.consult_result host.side callback passes behaviour deadline world
  obtain ⟨rest, journal, _⟩ :=
    Run.consult_begins host.side callback passes behaviour deadline world
  have expires : Run.Expires (Run.enclose host.side callback passes
      (Run.play host.side (behaviour world.journal))) := (Run.expires_play _ _).enclose
  have began : world.Began (Run.consult host.side callback passes behaviour deadline world).2
      host.side callback world.journal := by
    refine ⟨List.prefix_rfl, rest, ?_⟩
    rw [journal, List.append_assoc, List.singleton_append]
  refine ⟨(List.prefix_append _ _).trans began.ahead, ?_⟩
  rcases settled with answered | ⟨_, overdue⟩
  · rw [answered]
    cases given : (behaviour world.journal).result with
    | ok value => exact .gave ⟨given, began⟩
    | error fault => exact .raised ⟨callback, world.journal, faults _ _ given, began⟩
  · rw [overdue]
    exact .overdue (expires deadline world overdue)

/-- Finding services needs nothing but the provider. -/
theorem accounts_resolveAll (parameters : List Parameter) :
    host.Accounts id (fun _ _ _ => True) (host.resolveAll parameters) := by
  unfold resolveAll
  generalize (Keyed.empty : Keyed σ) = services
  induction parameters generalizing services with
  | nil => exact accounts_pure fun _ => trivial
  | cons parameter parameters ih =>
    rw [List.foldlM_cons]
    have found : host.Accounts id _ (host.resolve parameter.type) :=
      accounts_consult fun _ _ raised => raised
    have first : host.Accounts id (fun _ _ _ => True)
        (host.resolve parameter.type >>= fun service =>
          Run.pure (services.insert parameter.name service)) :=
      found.then fun _ => accounts_pure fun _ => trivial
    exact first.then ih

end Host

namespace Gate

variable {host : Host σ} {operation : Operation} {gate : Gate σ} {call : Call}

/-- A verdict of denial is that of a check. -/
theorem accounts_askAll {kind : Kind} {services : Keyed σ} {checks : List (GateCheck σ)}
    (registered : ∀ check ∈ checks, host.checker? check.key = some check.checker) :
    host.Accounts id (fun world later verdict => verdict.allowed = false →
      ∃ check ∈ checks, host.Refused check.key verdict world later)
      (askAll host.side kind call services checks) := by
  induction checks with
  | nil => exact Host.accounts_pure fun _ denied => absurd denied.symm Bool.false_ne_true
  | cons check checks ih =>
    have here := registered check List.mem_cons_self
    have rest := ih fun other member => registered other (List.mem_cons_of_mem _ member)
    have asked : host.Accounts id _
        (check.ask host.side (check.question kind call services)) :=
      Host.accounts_consult fun _ _ raised => ⟨check.checker, here, raised⟩
    refine asked.bind fun verdict => ?_
    by_cases allowed : verdict.allowed = true
    · rw [if_pos allowed]
      refine rest.imp fun _ refused world grows _ denied => ?_
      obtain ⟨other, member, refuses⟩ := refused denied
      exact ⟨other, List.mem_cons_of_mem _ member, refuses.around grows List.prefix_rfl⟩
    · rw [if_neg allowed]
      refine Host.accounts_pure fun middle world _ answered denied => ?_
      exact ⟨check, List.mem_cons_self, _, check.checker, _, rfl, here, answered.1, denied,
        answered.2⟩

/-- A gate that rules that an operation is denied has a check that denied. -/
theorem accounts_guard (side : gate.side = host.side)
    (registered : ∀ check ∈ gate.checks, host.checker? check.key = some check.checker) :
    host.Accounts Fault.asFailure (fun world later ruled => ruled.2.allowed = false →
      ∃ check ∈ gate.checks, host.Refused check.key ruled.2 world later)
      (guard host operation gate call) := by
  have found := (host.accounts_resolveAll operation.injectedParameters).mapError Fault.asFailure
  refine found.bind fun services => ?_
  have asked : host.Accounts id (fun world later verdict => verdict.allowed = false →
      ∃ check ∈ gate.checks, host.Refused check.key verdict world later)
      (gate.evaluate call services) := by
    unfold evaluate
    rw [side]
    exact accounts_askAll registered
  refine (asked.mapError Fault.asFailure).bind fun verdict => ?_
  refine Host.accounts_pure fun middle world _ refused first grows _ denied => ?_
  obtain ⟨check, member, refuses⟩ := refused denied
  exact ⟨check, member, refuses.around grows List.prefix_rfl⟩

end Gate

namespace Path

variable {host : Host σ} {typeName : String} {saveState : Bool} {operation : Operation}
  {handler : Handler σ} {gate : Gate σ} {call : Call} {services : Keyed σ}

/-- What acts on its receiver is stopped by nothing but code of the host. -/
theorem accounts_act (handled : host.handler? operation.handler = some handler)
    (given : operation.isWrite = true → call.target.isSome = true) :
    host.Accounts Fault.asFailure (fun _ _ _ => True)
      (act host typeName saveState operation handler call services) := by
  obtain ⟨receiver, received⟩ := receiver_eq_ok typeName given
  unfold act
  rw [received]
  have found : host.Accounts Fault.asFailure (fun _ _ _ => True)
      (Run.ofExcept (.ok receiver) : Run σ Failure _) := Host.accounts_pure fun _ => trivial
  have before (target : Option Entity) : host.Accounts id _ (host.before operation target) :=
    Host.accounts_consult fun _ _ raised => raised
  have handles (invocation : Invocation σ) :
      host.Accounts id _ (host.handle operation.handler handler invocation) :=
    Host.accounts_consult fun _ _ raised => ⟨handler, handled, raised⟩
  have after (output : Option Output) : host.Accounts id _ (host.after operation output) :=
    Host.accounts_consult fun _ _ raised => raised
  refine found.then fun target => ((before target).mapError Fault.asFailure).then fun _ => ?_
  refine ((handles _).mapError Fault.asFailure).then fun completion => ?_
  refine ((after _).mapError Fault.asFailure).then fun _ => ?_
  exact Host.accounts_pure fun _ => trivial

end Path

/-- A denial by a gate is that of a check to which a binding refers. -/
theorem Gate.binding_of_check {host : Host σ} {plan : Plan} {operation : Operation}
    {bindings : List Binding} {gate : Gate σ}
    (built : build host plan.checks operation bindings = .ok gate) {check : GateCheck σ}
    (member : check ∈ gate.checks) : ∃ binding ∈ bindings, plan.checkKey binding = check.key := by
  have listed : Station.check check.key ∈ plan.checkStations bindings := by
    rw [← (stations_eq built).1]
    exact List.mem_map_of_mem member
  obtain ⟨binding, present, same⟩ := List.mem_map.mp listed
  exact ⟨binding, present, Station.check.inj same⟩

/-- What a reply tells of what happened on the side of a host that ran a method. -/
inductive Replied (host : Host σ) (plan : Plan) (method : PlannedMethod) (world later : World σ) :
    Reply → Prop
  /-- A check to which the method is bound denied. -/
  | denied {operation : Operation} {bindings : List Binding} {binding : Binding} {verdict : Verdict}
      (body : method.body = .run operation bindings) (member : binding ∈ bindings)
      (refused : host.Refused (plan.checkKey binding) verdict world later) :
      Replied host plan method world later (.denied verdict)
  /-- No check denied, and the handler ran just once. -/
  | completed {operation : Operation} {bindings : List Binding} {invocation : Invocation σ}
      {completion : Completion} (body : method.body = .run operation bindings)
      (allowed : ∀ key verdict, ¬ host.Refused key verdict world later)
      (ran : host.Ran operation.handler invocation completion world later)
      (once : ∀ other again, host.Ran operation.handler other again world later →
        again = completion) :
      Replied host plan method world later
        (.completed (operation.output? plan.saveState completion))
  /-- The method is a probe. -/
  | probed {wraps : String} {operation : Operation} {bindings : List Binding} {verdict : Verdict}
      (body : method.body = .probe wraps operation bindings) :
      Replied host plan method world later (.probed verdict)

namespace Factory

variable {host : Host σ} {plan : Plan} {method : PlannedMethod} {path : Path σ} {call : Call}

/-- An operation that runs on the side of a host completes, or a check denied it. -/
theorem execute_accounts {typeName : String} {saveState : Bool} {operation : Operation}
    {bindings : List Binding} {handler : Handler σ} {gate : Gate σ}
    (handled : host.handler? operation.handler = some handler)
    (built : Gate.build host plan.checks operation bindings = .ok gate)
    (given : operation.isWrite = true → call.target.isSome = true) :
    host.Accounts Fault.asFailure (fun world later reply =>
      (∃ output, reply = .completed output) ∨ ∃ binding ∈ bindings, ∃ verdict,
        reply = .denied verdict ∧ host.Refused (plan.checkKey binding) verdict world later)
      (Path.execute host typeName saveState operation handler gate call) := by
  rw [Path.execute_eq]
  refine (Gate.accounts_guard (Gate.build_eq_ok built).1 (Gate.stations_eq built).2).bind
    fun ruled => ?_
  by_cases allowed : ruled.2.allowed = true
  · rw [if_pos allowed]
    refine (Path.accounts_act handled given).imp fun ended _ _ _ _ => Or.inl ?_
    exact Path.act_completes (congrArg Prod.fst ended)
  · rw [if_neg allowed]
    refine Host.accounts_pure fun middle world _ refused => Or.inr ?_
    obtain ⟨check, member, refuses⟩ := refused (Bool.eq_false_iff.mpr allowed)
    obtain ⟨binding, present, key⟩ := Gate.binding_of_check built member
    rw [← key] at refuses
    exact ⟨binding, present, ruled.2, rfl, refuses⟩

/-- A path on the side of a host accounts for its replies. -/
theorem localPath_accounts (found : localPath host plan method = .ok path)
    (given : ∀ operation bindings, method.body = .run operation bindings →
      operation.isWrite = true → call.target.isSome = true) :
    host.Accounts Fault.asFailure (fun world later => Replied host plan method world later)
      (path call) := by
  have follows := localPath_follows found call
  cases localPath_runsHere found with
  | @run operation bindings handler gate body handled built =>
    refine (execute_accounts handled built (given operation bindings body)).imp ?_
    rintro deadline world later reply ended
      (⟨output, rfl⟩ | ⟨binding, member, verdict, rfl, refused⟩)
    · obtain ⟨news, added, orderly, completes⟩ := follows deadline world
      rw [ended] at added completes
      have complete := completes _ rfl trivial
      have once := Nat.le_trans orderly.order.sublist.countP_le (plan.stations_handlers method)
      obtain ⟨_, _, completion, _, ran, rfl⟩ :=
        Path.execute_ok handled (Gate.stations_eq built).2 ended
      exact .completed body (fun key verdict refused => refused.not_completes added complete) ran
        fun other again ranAgain => ran.unique ranAgain added once
    · exact .denied body member refused
  | @probe wraps operation bindings gate body built =>
    obtain ⟨_, registered⟩ := Gate.stations_eq built
    rw [Path.probe_eq]
    refine (Gate.accounts_guard (Gate.build_eq_ok built).1 registered).bind fun ruled => ?_
    exact Host.accounts_pure fun _ _ _ _ => .probed body

end Factory

/-- Between two worlds lie two others, and no code of a host begins but between those. -/
structure World.Encloses (first last world later : World σ) : Prop where
  before : first.journal <+: world.journal
  behind : later.journal <+: last.journal
  inside : ∀ {side : Side} {callback : Callback σ} {past : Journal σ},
    (∀ request, callback ≠ .dispatch request) → first.Began last side callback past →
      world.Began later side callback past

namespace World.Encloses

variable {host : Host σ} {first last world later : World σ}

/-- What is raised is raised inside. -/
theorem raised (encloses : first.Encloses last world later) {fault : Fault}
    (raised : host.Raised fault world later) : host.Raised fault first last :=
  raised.around encloses.before encloses.behind

/-- What refuses refuses inside. -/
theorem refused_iff (encloses : first.Encloses last world later) {key : String}
    {verdict : Verdict} :
    host.Refused key verdict first last ↔ host.Refused key verdict world later := by
  constructor
  · rintro ⟨question, checker, past, named, registered, answered, denied, began⟩
    refine ⟨question, checker, past, named, registered, answered, denied, ?_⟩
    exact encloses.inside (by intro request same; cases same) began
  · intro refused
    exact refused.around encloses.before encloses.behind

/-- What runs runs inside. -/
theorem ran_iff (encloses : first.Encloses last world later) {key : String}
    {invocation : Invocation σ} {completion : Completion} :
    host.Ran key invocation completion first last ↔
      host.Ran key invocation completion world later := by
  constructor
  · rintro ⟨handler, past, handled, gave, behind, ahead⟩
    obtain ⟨early, late⟩ :=
      encloses.inside (by intro request same; cases same) ⟨behind, ahead⟩
    exact ⟨handler, past, handled, gave, early, late⟩
  · intro ran
    exact ran.around encloses.before encloses.behind

/-- A reply tells the same of what happened inside. -/
theorem replied (encloses : first.Encloses last world later) {plan : Plan}
    {method : PlannedMethod} {reply : Reply}
    (replied : Replied host plan method world later reply) :
    Replied host plan method first last reply := by
  cases replied with
  | denied body member refused => exact .denied body member (encloses.refused_iff.mpr refused)
  | completed body allowed ran once =>
    refine .completed body ?_ (encloses.ran_iff.mpr ran) ?_
    · intro key verdict refused
      exact allowed key verdict (encloses.refused_iff.mp refused)
    · intro other again ranAgain
      exact once other again (encloses.ran_iff.mp ranAgain)
  | probed body => exact .probed body

end World.Encloses

/-- What happens between the entries of a dispatch is enclosed by them. -/
theorem World.encloses_dispatch {world later last : World σ} {side : Side} {request : Request}
    {news ending : Journal σ}
    (added : later.journal = (world.noting side (.began (.dispatch request))).journal ++ news)
    (ended : last.journal = later.journal ++ ending) (quiet : visited ending = []) :
    world.Encloses last (world.noting side (.began (.dispatch request))) later := by
  refine ⟨List.prefix_append _ _, ended ▸ List.prefix_append _ _, ?_⟩
  intro there callback past other began
  have whole : last.journal = world.journal ++
      (⟨side, .began (.dispatch request)⟩ :: (news ++ ending)) := by
    rw [ended, added]
    change world.journal ++ [_] ++ news ++ ending = _
    rw [List.append_assoc, List.append_assoc, List.singleton_append]
  obtain ⟨early, late, rfl, split⟩ := began.split whole
  cases early with
  | nil =>
    cases (List.cons.inj split).1
    exact absurd rfl (other request)
  | cons head early =>
    obtain ⟨rfl, rest⟩ := List.cons.inj split
    rcases split_append rest with ⟨rest, here, _⟩ | ⟨rest, _, there⟩
    · have inside := World.Began.of_split added here
      change World.Began _ _ _ _ (world.journal ++ [_] ++ early) at inside
      rw [List.append_assoc] at inside
      exact inside
    · rw [there] at quiet
      cases visited_eq_nil_of_split quiet

/-- How a method can end: as it does on the side of a host, or, when it is remote, because the limit
of time for requests has passed. -/
inductive Ending (host : Host σ) (plan : Plan) (method : PlannedMethod) (limit? : Option Nat)
    (deadline : Option Nat) (world later : World σ) : Except (Stop Failure) Reply → Prop
  /-- The method ended on the side of its host. -/
  | timely {result : Except (Stop Failure) Reply}
      (outcome : host.Outcome Fault.asFailure deadline world later
        (Replied host plan method world later) result) :
      Ending host plan method limit? deadline world later result
  /-- The limit has passed. -/
  | late {limit : Nat} (limited : limit? = some limit) (remote : method.isRemote = true)
      (elapsed : later.clock = world.clock + limit) :
      Ending host plan method limit? deadline world later (.error (.raised (.timeout limit)))

/-- A call that is sent to a table ends as the path that serves it, or because the limit has
passed. -/
theorem Path.remote_ends {host : Host σ} {plan : Plan} {method : PlannedMethod} {path : Path σ}
    {table : DispatchTable σ} {id : String} (side : Side) {limit : Nat} {call : Call}
    (offered : table.paths.get? id = some path) (isRemote : method.isRemote = true)
    (accounts : host.Accounts Fault.asFailure
      (fun world later => Replied host plan method world later) (path call))
    (deadline : Option Nat) (world : World σ) :
    Ending host plan method (some limit) deadline world
      (remote side id (.loopback limit table) call deadline world).2
      (remote side id (.loopback limit table) call deadline world).1 := by
  obtain ⟨request, returned⟩ := remote_returned side offered deadline world
  obtain ⟨⟨news, added⟩, outcome⟩ := accounts
    (some (Run.sooner limit deadline (world.noting side (.began (.dispatch request)))))
    (world.noting side (.began (.dispatch request)))
  -- No code of the host runs outside the path, whichever entry ends the dispatch.
  have encloses {later : World σ} {event : Event σ}
      (added : later.journal =
        (world.noting side (.began (.dispatch request))).journal ++ news)
      (ends : Entry.begun? ⟨side, event⟩ = none) : world.Encloses (later.noting side event)
        (world.noting side (.began (.dispatch request))) later := by
    refine World.encloses_dispatch added rfl ?_
    unfold visited
    rw [List.filterMap_cons, ends]
    rfl
  generalize path call _ _ = there at returned added outcome
  generalize remote side id (.loopback limit table) call deadline world = back at returned ⊢
  cases returned with
  | replied =>
    cases outcome with
    | gave held => exact .timely (.gave ((encloses added.symm rfl).replied held))
  | failed =>
    cases outcome with
    | raised raised => exact .timely (.raised ((encloses added.symm rfl).raised raised))
  | late limited =>
    cases outcome with
    | overdue expired =>
      refine .late rfl isRemote ?_
      exact (Option.some.inj expired).symm.trans limited
  | overdue earlier =>
    cases outcome with
    | overdue expired => exact .timely (.overdue ((Run.eq_sooner earlier).trans expired))

namespace Factory

variable {plan : Plan} {factory : Factory σ} {method : PlannedMethod} {call : Call}

/-- A method of a local factory ends as it does on the side of its host. -/
theorem run_ends_here {host : Host σ} (built : build host plan = .ok factory)
    (laidOut : plan.LaidOut) (member : method ∈ plan.methods) (role : method.role ≠ .save)
    (given : method.role = .write → call.target.isSome = true) (deadline : Option Nat)
    (world : World σ) :
    Ending host plan method none deadline world (factory.run method call deadline world).2
      (factory.run method call deadline world).1 := by
  obtain ⟨path, found, taken, _⟩ := (Built.here built).taken_here laidOut member role
  rw [run_eq taken]
  refine .timely (localPath_accounts found ?_ deadline world).2
  intro operation bindings body writes
  exact given (by rw [(laidOut.fits method member).run body, if_pos writes])

/-- A method of a remote factory that a local one serves ends as it does on the side on which it
runs, or because the limit for requests has passed. -/
theorem run_ends_apart {near far : Host σ} {limit : Nat} {server client : Factory σ}
    (serves : build far plan = .ok server)
    (sends : buildRemote near plan (some (.loopback limit server.dispatchTable)) = .ok client)
    (laidOut : plan.LaidOut) (member : method ∈ plan.methods) (role : method.role ≠ .save)
    (given : method.role = .write → call.target.isSome = true) (deadline : Option Nat)
    (world : World σ) :
    Ending (if method.isRemote then far else near) plan method (some limit) deadline world
      (client.run method call deadline world).2 (client.run method call deadline world).1 := by
  have aimed : ∀ operation bindings, method.body = .run operation bindings →
      operation.isWrite = true → call.target.isSome = true := by
    intro operation bindings body writes
    exact given (by rw [(laidOut.fits method member).run body, if_pos writes])
  have same := (Built.remote sends).plan_eq laidOut
  cases (Built.remote sends).placed laidOut member with
  | save saves => exact absurd saves role
  | sent _ carrier carried remote taken =>
    cases carried
    obtain ⟨path, found, _, offered⟩ := (Built.here serves).taken_here laidOut member role
    rw [run_eq taken, same]
    simp only [remote, ↓reduceIte]
    exact Path.remote_ends near.side (offered remote) remote (localPath_accounts found aimed)
      deadline world
  | here _ path stays found taken =>
    have near : method.isRemote = false := stays.resolve_left nofun
    rw [same] at found
    rw [run_eq taken]
    simp only [near, Bool.false_eq_true, ↓reduceIte]
    exact .timely (localPath_accounts found aimed deadline world).2

/-- A method of an arranged factory ends in one of the ways in which it can end. -/
theorem Arranged.run_ends {hostOf : PlannedMethod → Host σ}
    (arranged : Arranged plan hostOf factory) (laidOut : plan.LaidOut)
    (member : method ∈ plan.methods) (role : method.role ≠ .save)
    (given : method.role = .write → call.target.isSome = true) :
    ∃ limit?, ∀ deadline world, Ending (hostOf method) plan method limit? deadline world
      (factory.run method call deadline world).2 (factory.run method call deadline world).1 := by
  cases arranged with
  | here built => exact ⟨none, run_ends_here built laidOut member role given⟩
  | apart serves sends => exact ⟨_, run_ends_apart serves sends laidOut member role given⟩

end Factory

end DomainFactory
