import DomainFactory.Proofs.Crossing
import Mathlib.Data.UInt

/-!
# Numbers of requests

The requests of a factory meet in one dispatcher, and a response carries the number of its request.
Numbers are counted apart for each operation, though. In every interleaving of calls a request is
therefore known by its operation and its number together; by its number alone it is known only as
long as all requests are for one operation.
-/
namespace DomainFactory

variable {σ ε α β : Type}

/-- What tells requests apart: the operation and the number. -/
def Request.key (request : Request) : String × UInt64 := (request.operation, request.number)

/-- The request for what a caller asks, behind the requests that were made before. -/
def Ask.next (id : String) (made : List Request) (ask : Ask) : Request where
  number := .ofNat (made.countP (·.operation == id) + 1)
  operation := id
  target := ask.target?
  arguments := ask.arguments

/-- Requests in the order in which they took their numbers, those of them whose callers have not
handed them to the dispatcher yet, and those that the dispatcher has got. -/
structure Exchange where
  /-- All requests. -/
  made : List Request
  /-- Those on their way to the dispatcher. -/
  waiting : List Request
  /-- Those that the dispatcher has got. -/
  handed : List Request

namespace Exchange

/-- A step of one of any number of callers of one remote factory of a plan. -/
inductive Step (plan : Plan) : Exchange → Exchange → Prop
  /-- A call of a remote method makes the next request. -/
  | make {ask : Ask} {method : PlannedMethod} {call : Call} {made waiting handed : List Request}
      (routed : ask.route plan = .ok (some (method, call))) (remote : method.isRemote = true) :
      Step plan ⟨made, waiting, handed⟩
        ⟨made ++ [ask.next (Plan.operationId plan.typeName method.name) made],
          waiting ++ [ask.next (Plan.operationId plan.typeName method.name) made], handed⟩
  /-- A request comes to the dispatcher, in whatever order. -/
  | hand {made before behind handed : List Request} {request : Request} :
      Step plan ⟨made, before ++ request :: behind, handed⟩
        ⟨made, before ++ behind, handed ++ [request]⟩

/-- What interleaved calls can come to, from the start. -/
inductive Reachable (plan : Plan) : Exchange → Prop
  /-- No call has been made. -/
  | start : Reachable plan ⟨[], [], []⟩
  /-- A caller has made another step. -/
  | step {exchange later : Exchange} (reachable : Reachable plan exchange)
      (step : Step plan exchange later) : Reachable plan later

/-- Each request has the number of its place among the requests for its operation. -/
def Numbered (made : List Request) : Prop :=
  ∀ early request late, made = early ++ request :: late →
    request.number = .ofNat (early.countP (·.operation == request.operation) + 1)

/-- The next request is numbered behind those before it. -/
theorem Numbered.next {made : List Request} (numbered : Numbered made) (id : String) (ask : Ask) :
    Numbered (made ++ [ask.next id made]) := by
  intro early request late split
  rcases List.eq_nil_or_concat late with rfl | ⟨front, last, rfl⟩
  · obtain ⟨rfl, same⟩ := List.append_inj' split rfl
    cases same
    rfl
  · rw [List.concat_eq_append, ← List.cons_append, ← List.append_assoc] at split
    exact numbered early request front (List.append_inj' split rfl).1

/-- What is numbered in front of more. -/
theorem Numbered.front {made more : List Request} (numbered : Numbered (made ++ more)) :
    Numbered made := by
  intro early request late split
  refine numbered early request (late ++ more) ?_
  rw [split, List.append_assoc, List.cons_append]

/-- Numbered requests have distinct keys, as long as numbers do not run out. -/
theorem Numbered.keys_nodup {made : List Request} (numbered : Numbered made)
    (few : made.length < 2 ^ 64) : (made.map Request.key).Nodup := by
  induction made using List.reverseRecOn with
  | nil => exact List.nodup_nil
  | append_singleton made request ih =>
    rw [List.length_append, List.length_singleton] at few
    rw [List.map_append, List.map_singleton]
    refine List.nodup_append.mpr ⟨ih numbered.front (by omega), List.nodup_singleton _, ?_⟩
    rintro key listed other last same
    obtain ⟨earlier, member, rfl⟩ := List.mem_map.mp listed
    obtain rfl := List.mem_singleton.mp last
    obtain ⟨operations, numbers⟩ := Prod.mk.inj same
    -- An earlier request for the operation has fewer of them ahead of it.
    obtain ⟨early, late, rfl⟩ := List.append_of_mem member
    rw [numbered.front early earlier late rfl, numbered _ request [] rfl, operations,
      ← UInt64.toNat_inj, UInt64.toNat_ofNat', UInt64.toNat_ofNat'] at numbers
    have counted : (early ++ earlier :: late).countP (·.operation == request.operation) ≤
        (early ++ earlier :: late).length := List.countP_le_length
    rw [List.countP_append, List.countP_cons, operations] at numbers
    rw [List.countP_append, List.countP_cons, operations] at counted
    simp only [beq_self_eq_true, ↓reduceIte] at numbers counted
    rw [Nat.mod_eq_of_lt (by omega), Nat.mod_eq_of_lt (by omega)] at numbers
    omega

/-- Behind each numbered request stands a first one for its operation. -/
theorem Numbered.first {made : List Request} (numbered : Numbered made) {request : Request}
    (member : request ∈ made) :
    ∃ first ∈ made, first.operation = request.operation ∧ first.number = 1 := by
  obtain ⟨first, found⟩ : ∃ first, made.find? (·.operation == request.operation) = some first :=
    Option.isSome_iff_exists.mp (List.find?_isSome.mpr ⟨request, member, beq_self_eq_true _⟩)
  obtain ⟨same, early, late, split, others⟩ := List.find?_eq_some_iff_append.mp found
  have operation := beq_iff_eq.mp same
  refine ⟨first, List.mem_of_find?_eq_some found, operation, ?_⟩
  have none : early.countP (·.operation == first.operation) = 0 := by
    refine List.countP_eq_zero.mpr fun other among => ?_
    rw [operation]
    simpa using others other among
  rw [numbered early first late split, none]
  rfl

/-- Whatever the interleaving, requests are numbered in the order in which they are made, and each
of them is on its way or with the dispatcher. -/
theorem Reachable.ordered {plan : Plan} {exchange : Exchange}
    (reachable : Reachable plan exchange) :
    Numbered exchange.made ∧ exchange.made.Perm (exchange.waiting ++ exchange.handed) := by
  induction reachable with
  | start =>
    refine ⟨?_, List.Perm.refl _⟩
    intro early request late split
    cases early <;> cases split
  | step _ step ih =>
    obtain ⟨numbered, kept⟩ := ih
    cases step with
    | make routed remote =>
      refine ⟨numbered.next _ _, (kept.append_right _).trans ?_⟩
      rw [List.append_assoc, List.append_assoc]
      exact List.perm_append_comm.append_left _
    | hand =>
      refine ⟨numbered, kept.trans ((List.perm_middle.append_right _).trans ?_)⟩
      rw [← List.append_assoc]
      exact (List.perm_append_singleton _ _).symm

/-- Whatever the interleaving, requests that the dispatcher has got have distinct keys, as long as
numbers do not run out. -/
theorem Reachable.keys_nodup {plan : Plan} {exchange : Exchange}
    (reachable : Reachable plan exchange) (few : exchange.made.length < 2 ^ 64) :
    (exchange.handed.map Request.key).Nodup := by
  obtain ⟨numbered, kept⟩ := reachable.ordered
  have distinct := (kept.map Request.key).nodup_iff.mp (numbered.keys_nodup few)
  rw [List.map_append] at distinct
  exact (List.nodup_append.mp distinct).2.1

/-- All requests that the dispatcher has got are for one operation. -/
def OneOperation (exchange : Exchange) : Prop :=
  ∀ left ∈ exchange.handed, ∀ right ∈ exchange.handed, left.operation = right.operation

/-- Requests for one operation have distinct numbers. -/
theorem Reachable.numbers_nodup {plan : Plan} {exchange : Exchange}
    (reachable : Reachable plan exchange) (few : exchange.made.length < 2 ^ 64)
    (alone : exchange.OneOperation) : (exchange.handed.map Request.number).Nodup := by
  have keys := reachable.keys_nodup few
  refine List.Nodup.map_on ?_ (List.Nodup.of_map _ keys)
  intro left here right there same
  have alike : left.key = right.key := Prod.ext (alone left here right there) same
  exact List.inj_on_of_nodup_map keys here there alike

/-- When the dispatcher has got all requests, only those for one operation have distinct numbers. -/
theorem Reachable.oneOperation {plan : Plan} {exchange : Exchange}
    (reachable : Reachable plan exchange) (settled : exchange.waiting = [])
    (distinct : (exchange.handed.map Request.number).Nodup) : exchange.OneOperation := by
  obtain ⟨numbered, kept⟩ := reachable.ordered
  rw [settled, List.nil_append] at kept
  intro left here right there
  obtain ⟨first, listed, same, one⟩ := numbered.first (kept.mem_iff.mpr here)
  obtain ⟨other, present, alike, too⟩ := numbered.first (kept.mem_iff.mpr there)
  have equal : first = other := List.inj_on_of_nodup_map distinct (kept.mem_iff.mp listed)
    (kept.mem_iff.mp present) (one.trans too.symm)
  calc left.operation = first.operation := same.symm
    _ = other.operation := by rw [equal]
    _ = right.operation := alike

end Exchange

/-- The request that a side hands to its dispatcher with an entry. -/
def Entry.sent? (side : Side) (entry : Entry σ) : Option Request :=
  match entry.event with
  | .began (.dispatch request) => if entry.side = side then some request else none
  | _ => none

/-- The requests that a side has handed to its dispatcher. -/
def sent (side : Side) (journal : Journal σ) : List Request :=
  journal.filterMap (Entry.sent? side)

/-- Requests of two journals are sent one after the other. -/
theorem sent_append (side : Side) (first second : Journal σ) :
    sent side (first ++ second) = sent side first ++ sent side second := List.filterMap_append

/-- Where nothing of the kind begins, nothing is sent. -/
theorem sent_eq_nil {side : Side} {news : Journal σ}
    (none : ∀ operation, Station.dispatch operation ∉ visited news) : sent side news = [] := by
  refine List.filterMap_eq_nil_iff.mpr fun entry member => ?_
  unfold Entry.sent?
  split
  next request began =>
    refine absurd ?_ (none request.operation)
    refine List.mem_filterMap.mpr ⟨entry, member, ?_⟩
    unfold Entry.begun?
    rw [began]
    rfl
  next => rfl

/-- A request is sent with the entry of its dispatch. -/
theorem sent_dispatch (side : Side) (world : World σ) (request : Request) :
    sent side (world.noting side (.began (.dispatch request))).journal =
      sent side world.journal ++ [request] := by
  change sent side (world.journal ++ [_]) = _
  rw [sent_append]
  simp only [sent, List.filterMap_cons, Entry.sent?, ↓reduceIte, List.filterMap_nil]

/-- The number of a request counts the requests that its side has sent. -/
theorem Ask.request_eq (side : Side) (id : String) (past : Journal σ) (ask : Ask) :
    ask.request side id past = ask.next id (sent side past) := by
  have counted : past.countP (Entry.sends side id) =
      (sent side past).countP (·.operation == id) := by
    unfold sent
    rw [List.countP_filterMap]
    congr 1
    funext entry
    by_cases dispatched : ∃ request, entry.event = .began (.dispatch request)
    · obtain ⟨request, began⟩ := dispatched
      unfold Entry.sends Entry.sent?
      simp only [began]
      by_cases here : entry.side = side
      · simp only [here, beq_self_eq_true, Bool.true_and, ↓reduceIte, Option.map_some,
          Option.getD_some]
      · simp only [beq_eq_false_iff_ne.mpr here, Bool.false_and, here, ↓reduceIte, Option.map_none,
          Option.getD_none]
    · have uncounted : entry.sends side id = false := by
        unfold Entry.sends
        split
        next request began => exact absurd ⟨request, began⟩ dispatched
        next => rfl
      have unsent : entry.sent? side = none := by
        unfold Entry.sent?
        split
        next request began => exact absurd ⟨request, began⟩ dispatched
        next => rfl
      rw [uncounted, unsent]
      rfl
  unfold Ask.request Ask.next
  rw [counted]

/-- What a side has sent, when every request has come to its dispatcher. -/
def Exchange.ofJournal (side : Side) (journal : Journal σ) : Exchange :=
  ⟨sent side journal, [], sent side journal⟩

/-- The run makes requests as interleaved callers do. -/
def Run.Exchanges (side : Side) (plan : Plan) (run : Run σ ε α) : Prop :=
  ∀ deadline world, (Exchange.ofJournal side world.journal).Reachable plan →
    (Exchange.ofJournal side (run deadline world).2.journal).Reachable plan

/-- No station of a method hands a request to the dispatcher. -/
theorem Plan.dispatch_notMem_stations {plan : Plan} {method : PlannedMethod} (operation : String) :
    Station.dispatch operation ∉ plan.stations method := by
  have gate {asked : Operation} {bindings : List Binding} :
      Station.dispatch operation ∉ plan.gateStations asked bindings := by
    intro member
    rcases List.mem_append.mp member with service | check
    · obtain ⟨parameter, _, same⟩ := List.mem_map.mp service
      cases same
    · obtain ⟨binding, _, same⟩ := List.mem_map.mp check
      cases same
  intro member
  cases body : method.body with
  | run ran bindings =>
    rw [stations_run body] at member
    rcases List.mem_append.mp member with among | acts
    · exact gate among
    · simp only [List.mem_cons, reduceCtorEq, List.not_mem_nil, or_self] at acts
  | probe wraps asked bindings =>
    rw [stations_probe body] at member
    exact gate member
  | save insert update delete tryName =>
    unfold stations at member
    rw [body] at member
    cases member

/-- A method on the side of a host sends nothing. -/
theorem Gated.sent_eq_nil {host : Host σ} {plan : Plan} {method : PlannedMethod}
    {past news : Journal σ} (gated : Gated host plan method past news) (side : Side) :
    sent side news = [] :=
  DomainFactory.sent_eq_nil fun operation visits =>
    Plan.dispatch_notMem_stations operation (gated.orderly.order.subset visits)

/-- The run sends nothing from a side. -/
def Run.SendsNothing (side : Side) (run : Run σ ε α) : Prop :=
  ∀ deadline world, sent side (run deadline world).2.journal = sent side world.journal

/-- A run that sends nothing makes requests as any callers do: none. -/
theorem Run.SendsNothing.exchanges {side : Side} {run : Run σ ε α} (quiet : run.SendsNothing side)
    (plan : Plan) : run.Exchanges side plan := by
  intro deadline world reachable
  unfold Exchange.ofJournal
  rw [quiet]
  exact reachable

/-- Behind a request that is handed over, what is sent is what its dispatcher sends. -/
theorem Dispatcher.sent_carried (side : Side) (carrier : Dispatcher σ) (request : Request)
    (deadline : Option Nat) (world : World σ) :
    sent side (carried side carrier request deadline world).2.journal =
      sent side (carrier request deadline
        (world.noting side (.began (.dispatch request)))).2.journal := by
  have closed (later : World σ) {event : Event σ} (ends : Entry.sent? side ⟨side, event⟩ = none) :
      sent side (later.noting side event).journal = sent side later.journal := by
    change sent side (later.journal ++ [_]) = _
    rw [sent_append]
    simp only [sent, List.filterMap_cons, ends, List.filterMap_nil, List.append_nil]
  unfold carried
  rw [Run.conclude_world, Run.mapError_world, Run.enclose_apply]
  cases carrier request deadline (world.noting side (.began (.dispatch request))) with
  | mk result later =>
    match result with
    | .ok response => exact closed later rfl
    | .error (.raised fault) => exact closed later rfl
    | .error .overdue => rfl

/-- A request that is handed over is made and handed at once, and then its dispatcher runs. -/
theorem Dispatcher.carried_exchanges {side : Side} {plan : Plan} {carrier : Dispatcher σ}
    {ask : Ask} {method : PlannedMethod} {call : Call}
    (routed : ask.route plan = .ok (some (method, call))) (remote : method.isRemote = true)
    (carries : ∀ request, (carrier request).Exchanges side plan) {deadline : Option Nat}
    {world : World σ} (reachable : (Exchange.ofJournal side world.journal).Reachable plan) :
    (Exchange.ofJournal side (carried side carrier (ask.next
      (Plan.operationId plan.typeName method.name) (sent side world.journal)) deadline
        world).2.journal).Reachable plan := by
  generalize asked : ask.next (Plan.operationId plan.typeName method.name)
    (sent side world.journal) = request
  have begun : (Exchange.ofJournal side
      (world.noting side (.began (.dispatch request))).journal).Reachable plan := by
    have made := reachable.step (.make routed remote)
    rw [asked] at made
    have hands : Exchange.Step plan
        ⟨sent side world.journal ++ [request], [] ++ request :: [], sent side world.journal⟩
        ⟨sent side world.journal ++ [request], [] ++ [], sent side world.journal ++ [request]⟩ :=
      .hand
    unfold Exchange.ofJournal
    rw [sent_dispatch]
    exact made.step hands
  unfold Exchange.ofJournal
  rw [sent_carried]
  exact carries request deadline _ begun

/-- A table answers a request under its number. -/
theorem DispatchTable.serve_number {table : DispatchTable σ} {request : Request}
    {deadline : Option Nat} {world later : World σ} {response : Response}
    (served : table.serve request deadline world = (.ok response, later)) :
    response.number = request.number := by
  unfold serve at served
  cases offered : table.paths.get? request.operation with
  | none =>
    rw [offered] at served
    cases served
  | some path =>
    rw [offered] at served
    obtain ⟨reply, last, _, answered⟩ := Run.bind_eq_ok served
    cases answered
    rfl

/-- A table with a time limit answers a request under its number. -/
theorem DispatchTable.serveWithin_number {table : DispatchTable σ} {limit : Nat} {request : Request}
    {deadline : Option Nat} {world later : World σ} {response : Response}
    (served : table.serveWithin limit request deadline world = (.ok response, later)) :
    response.number = request.number := by
  unfold serveWithin at served
  by_cases overdue :
      (table.serve request (some (Run.sooner limit deadline world)) world).1 = .error .overdue
  · rw [Run.within_overdue (Prod.ext overdue rfl)] at served
    cases served
  · rw [Run.within_punctual overdue] at served
    exact serve_number served

namespace Factory

variable {host : Host σ} {plan : Plan} {factory : Factory σ}

/-- A call of a remote method hands over the next request, and any other call sends nothing. -/
theorem answer_sends {carrier : Dispatcher σ}
    (built : buildRemote host plan (some carrier) = .ok factory) (laidOut : plan.LaidOut)
    (ask : Ask) (deadline : Option Nat) (world : World σ) :
    sent host.side (factory.answer ask deadline world).2.journal = sent host.side world.journal ∨
      ∃ method call, ask.route plan = .ok (some (method, call)) ∧ method.isRemote = true ∧
        (factory.answer ask deadline world).2 = (Dispatcher.carried host.side carrier (ask.next
          (Plan.operationId plan.typeName method.name) (sent host.side world.journal)) deadline
            world).2 := by
  have sends := Built.remote built
  have same := sends.plan_eq laidOut
  cases routed : ask.route plan with
  | error failure =>
    left
    rw [answer_eq_follow, same, routed]
    rfl
  | ok found =>
    cases found with
    | none =>
      left
      rw [answer_eq_follow, same, routed]
      change sent _ ((Run.ofExcept _ : Run σ Failure ask.Result) deadline world).2.journal = _
      cases ask.conclude ask.name (.completed none) <;> rfl
    | some found =>
      obtain ⟨method, call⟩ := found
      cases remote : method.isRemote with
      | true =>
        right
        refine ⟨method, call, rfl, remote, ?_⟩
        rw [answer_carried built laidOut routed remote, Run.conclude_world, Ask.request_eq]
      | false =>
        left
        obtain ⟨named, role⟩ := Ask.of_route routed
        rw [answer_routed (by rw [same]; exact routed), Run.conclude_world]
        rcases run_gated sends laidOut (laidOut.method_eq_some.mp named).1
          (role ▸ ask.role_ne_save) call deadline world with
          ⟨news, journal, gated⟩ | ⟨_, _, relayed, _⟩
        · rw [journal, sent_append, gated.sent_eq_nil, List.append_nil]
        · rw [remote] at relayed
          cases relayed

/-- A factory makes requests as interleaved callers do, when what carries them does. -/
theorem answer_exchanges {carrier : Dispatcher σ}
    (built : buildRemote host plan (some carrier) = .ok factory) (laidOut : plan.LaidOut)
    (carries : ∀ request, (carrier request).Exchanges host.side plan) (ask : Ask) :
    (factory.answer ask).Exchanges host.side plan := by
  intro deadline world reachable
  rcases answer_sends built laidOut ask deadline world with
    still | ⟨method, call, routed, remote, carried⟩
  · unfold Exchange.ofJournal
    rw [still]
    exact reachable
  · rw [carried]
    exact Dispatcher.carried_exchanges routed remote carries reachable

/-- What a local factory serves sends nothing. -/
theorem loopback_sendsNothing {far : Host σ} {server : Factory σ}
    (serves : build far plan = .ok server) (laidOut : plan.LaidOut) (side : Side) (limit : Nat)
    (request : Request) :
    (Dispatcher.loopback limit server.dispatchTable request).SendsNothing side := by
  intro deadline world
  unfold Dispatcher.loopback DispatchTable.serveWithin
  rw [Run.mapError_world, Run.within_world]
  rcases serve_serves (.here serves) laidOut request (some (Run.sooner limit deadline world))
    world with still | ⟨method, _, _, news, journal, gated⟩
  · rw [still]
  · rw [journal, sent_append, gated.sent_eq_nil, List.append_nil]

/-- The requests that a factory has sent from its side, in a world where no other factory has sent
any from there: it was called any number of times, and nothing else was sent before, during or
between its calls. -/
inductive SentAlone (factory : Factory σ) (side : Side) : List Request → World σ → Prop
  /-- Nothing has been sent yet. -/
  | fresh {world : World σ} (unsent : sent side world.journal = []) :
    SentAlone factory side [] world
  /-- A call has sent a request at most. -/
  | called {own more : List Request} {world : World σ} (alone : SentAlone factory side own world)
    (ask : Ask) (deadline : Option Nat)
    (sends : sent side (factory.answer ask deadline world).2.journal =
      sent side world.journal ++ more) (few : more.length ≤ 1) :
    SentAlone factory side (own ++ more) (factory.answer ask deadline world).2
  /-- Whatever else has happened has sent nothing. -/
  | quiet {own : List Request} {world later : World σ} (alone : SentAlone factory side own world)
    (still : sent side later.journal = sent side world.journal) : SentAlone factory side own later

/-- What a factory alone has sent is all that was sent. -/
theorem SentAlone.sent_eq {side : Side} {own : List Request} {world : World σ}
    (alone : factory.SentAlone side own world) : sent side world.journal = own := by
  induction alone with
  | fresh unsent => exact unsent
  | called _ ask deadline sends few ih => rw [sends, ih]
  | quiet _ still ih => rw [still, ih]

/-- Behind a call of a factory that alone has sent it alone has sent, when what carries its requests
sends nothing. -/
theorem SentAlone.answer {carrier : Dispatcher σ}
    (built : buildRemote host plan (some carrier) = .ok factory) (laidOut : plan.LaidOut)
    (carries : ∀ request, (carrier request).SendsNothing host.side) {own : List Request}
    {world : World σ} (alone : factory.SentAlone host.side own world) (ask : Ask)
    (deadline : Option Nat) :
    ∃ later, factory.SentAlone host.side later (factory.answer ask deadline world).2 := by
  rcases answer_sends built laidOut ask deadline world with
    still | ⟨method, call, routed, remote, carried⟩
  · exact ⟨own, alone.quiet still⟩
  · have sends : sent host.side (factory.answer ask deadline world).2.journal =
        sent host.side world.journal ++ [ask.next (Plan.operationId plan.typeName method.name)
          (sent host.side world.journal)] := by
      rw [carried, Dispatcher.sent_carried, carries, sent_dispatch]
    exact ⟨_, alone.called ask deadline sends le_rfl⟩

/-- The world behind calls of a factory, one after another. -/
def following (factory : Factory σ) (deadline : Option Nat) (asks : List Ask) (world : World σ) :
    World σ :=
  asks.foldl (fun world ask => (factory.answer ask deadline world).2) world

/-- Calls one after another make requests as interleaved callers do. -/
theorem following_exchanges {side : Side} {asks : List Ask}
    (answers : ∀ ask, (factory.answer ask).Exchanges side plan) {deadline : Option Nat}
    {world : World σ} (reachable : (Exchange.ofJournal side world.journal).Reachable plan) :
    (Exchange.ofJournal side (factory.following deadline asks world).journal).Reachable plan := by
  induction asks generalizing world with
  | nil => exact reachable
  | cons ask asks ih => exact ih (answers ask deadline world reachable)

/-- A factory that alone has sent stays alone over calls one after another, when what carries its
requests sends nothing. -/
theorem following_alone {carrier : Dispatcher σ}
    (built : buildRemote host plan (some carrier) = .ok factory) (laidOut : plan.LaidOut)
    (carries : ∀ request, (carrier request).SendsNothing host.side) (asks : List Ask)
    (deadline : Option Nat) {own : List Request} {world : World σ}
    (alone : factory.SentAlone host.side own world) :
    ∃ later, factory.SentAlone host.side later (factory.following deadline asks world) := by
  induction asks generalizing own world with
  | nil => exact ⟨own, alone⟩
  | cons ask asks ih =>
    obtain ⟨later, still⟩ := alone.answer built laidOut carries ask deadline
    exact ih still

/-- How a remote factory with a dispatcher numbers its requests. -/
structure NumbersRequests (host : Host σ) (plan : Plan) (carrier : Dispatcher σ)
    (factory : Factory σ) : Prop where
  /-- Where no other factory of its side has sent any requests, a call of a remote method is one
  request, the next one behind those that the factory has sent before. -/
  sends : ∀ {ask : Ask} {method : PlannedMethod} {call : Call},
    ask.route plan = .ok (some (method, call)) → method.isRemote = true →
      ∀ {own : List Request} (deadline : Option Nat) {world : World σ},
        factory.SentAlone host.side own world → factory.answer ask deadline world =
          (Dispatcher.carried host.side carrier
              (ask.next (Plan.operationId plan.typeName method.name) own) >>=
            fun reply => Run.ofExcept (ask.conclude method.name reply)) deadline world
  /-- So it is behind calls one after another, when what carries their requests sends nothing. -/
  stays : (∀ request, (carrier request).SendsNothing host.side) →
    ∀ (asks : List Ask) (deadline : Option Nat) (world : World σ),
      sent host.side world.journal = [] →
        ∃ own, factory.SentAlone host.side own (factory.following deadline asks world)
  /-- Calls one after another send what interleaved callers may, when what carries their requests
  sends no others. -/
  follows : (∀ request, (carrier request).Exchanges host.side plan) →
    ∀ (asks : List Ask) (deadline : Option Nat) (world : World σ),
      sent host.side world.journal = [] → (Exchange.ofJournal host.side
        (factory.following deadline asks world).journal).Reachable plan

/-- A remote factory numbers its requests. -/
theorem numbersRequests {carrier : Dispatcher σ}
    (built : buildRemote host plan (some carrier) = .ok factory) (laidOut : plan.LaidOut) :
    factory.NumbersRequests host plan carrier := by
  constructor
  · intro ask method call routed remote own deadline world alone
    rw [answer_carried built laidOut routed remote, Ask.request_eq, alone.sent_eq]
  · intro carries asks deadline world fresh
    exact following_alone built laidOut carries asks deadline (.fresh fresh)
  · intro carries asks deadline world fresh
    have reachable : (Exchange.ofJournal host.side world.journal).Reachable plan := by
      unfold Exchange.ofJournal
      rw [fresh]
      exact .start
    exact following_exchanges (answer_exchanges built laidOut carries) reachable

end Factory

/-- How the requests for a plan are told apart, and how responses find them. -/
structure Plan.Correlates (σ : Type) (plan : Plan) : Prop where
  /-- Requests are told apart by operation and number, whatever the interleaving of the calls. -/
  keys : ∀ {exchange : Exchange}, exchange.Reachable plan → exchange.made.length < 2 ^ 64 →
    (exchange.handed.map Request.key).Nodup
  /-- Requests for one operation are told apart by their numbers. -/
  alone : ∀ {exchange : Exchange}, exchange.Reachable plan → exchange.made.length < 2 ^ 64 →
    exchange.OneOperation → (exchange.handed.map Request.number).Nodup
  /-- Requests for more than one are not, once all of them are with the dispatcher. -/
  only : ∀ {exchange : Exchange}, exchange.Reachable plan → exchange.waiting = [] →
    (exchange.handed.map Request.number).Nodup → exchange.OneOperation
  /-- Every remote factory makes its requests so. -/
  numbers : ∀ {host : Host σ} {carrier : Dispatcher σ} {factory : Factory σ},
    Factory.buildRemote host plan (some carrier) = .ok factory →
      factory.NumbersRequests host plan carrier
  /-- What a local factory serves sends no requests of any side. -/
  loopback : ∀ {far : Host σ} {server : Factory σ}, Factory.build far plan = .ok server →
    ∀ side limit request,
      (Dispatcher.loopback limit server.dispatchTable request).SendsNothing side
  /-- A response has the number of its request. -/
  answers : ∀ {table : DispatchTable σ} {limit : Nat} {request : Request} {deadline : Option Nat}
    {world later : World σ} {response : Response},
    table.serveWithin limit request deadline world = (.ok response, later) →
      response.number = request.number

namespace Generation

/-- Requests for a generated plan are told apart by operation and number, and a response has the
number of its request. -/
theorem generate_correlates {config : Config} {catalog : Catalog} {typeName : String} {plan : Plan}
    (made : generate config catalog typeName = .ready plan) : plan.Correlates σ where
  keys := Exchange.Reachable.keys_nodup
  alone := Exchange.Reachable.numbers_nodup
  only := Exchange.Reachable.oneOperation
  numbers built := Factory.numbersRequests built (generate_laidOut made)
  loopback serves := Factory.loopback_sendsNothing serves (generate_laidOut made)
  answers := DispatchTable.serveWithin_number

/-- A read of the sample that is overtaken by the question of its probe. -/
def overtaken : Exchange where
  made := [⟨1, "Person::fetch", none, [.null]⟩, ⟨1, "Person::can_fetch", none, [.null]⟩]
  waiting := []
  handed := [⟨1, "Person::can_fetch", none, [.null]⟩, ⟨1, "Person::fetch", none, [.null]⟩]

/-- The calls of the sample can interleave so. -/
theorem overtaken_reachable : overtaken.Reachable samplePlan := by
  have reads : (Ask.read "fetch" [.null]).route samplePlan =
      .ok (some (samplePlan.methods[0], ⟨none, [.null]⟩)) := rfl
  have asks : (Ask.can "can_fetch" [.null]).route samplePlan =
      .ok (some (samplePlan.methods[3], ⟨none, [.null]⟩)) := rfl
  have made := (Exchange.Reachable.start.step (.make reads rfl)).step (.make asks rfl)
  -- The second request goes ahead of the first.
  have first : Exchange.Step samplePlan
      ⟨overtaken.made, [overtaken.made[0]] ++ overtaken.made[1] :: [], []⟩
      ⟨overtaken.made, [overtaken.made[0]] ++ [], [overtaken.made[1]]⟩ := .hand
  have second : Exchange.Step samplePlan
      ⟨overtaken.made, [] ++ overtaken.made[0] :: [], [overtaken.made[1]]⟩ overtaken := .hand
  exact (made.step first).step second

/-- What the client of the sample sends, read off from both sides as they are built. -/
theorem sample_sent {server client : Factory String}
    (serves : Factory.build (sampleHost .server) samplePlan = .ok server)
    (sends : Factory.buildRemote (sampleHost .client) samplePlan
      (some (.loopback 100 server.dispatchTable)) = .ok client) (asks : List Ask)
    (keys : List (String × UInt64))
    (ran : ((Factory.build (sampleHost .server) samplePlan).bind fun server =>
      (Factory.buildRemote (sampleHost .client) samplePlan
        (some (.loopback 100 server.dispatchTable))).map fun client =>
          (sent .client (client.following none asks {}).journal).map Request.key).toOption =
            some keys) :
    (sent .client (client.following none asks {}).journal).map Request.key = keys := by
  simp only [serves, Except.bind, sends, Except.map, Except.toOption] at ran
  exact Option.some.inj ran

/-- Requests of the sample are told apart when one overtakes the other, and two reads in a row have
distinct numbers. -/
theorem sample_correlates : (overtaken.handed.map Request.key).Nodup ∧
    ∃ server client : Factory String,
      Factory.build (sampleHost .server) samplePlan = .ok server ∧
      Factory.buildRemote (sampleHost .client) samplePlan
        (some (.loopback 100 server.dispatchTable)) = .ok client ∧
      ∃ requests, sent .client (client.following none
          [.read "fetch" [.null], .read "fetch" [.null]] {}).journal = requests ∧
        requests.map Request.operation = ["Person::fetch", "Person::fetch"] ∧
        (requests.map Request.number).Nodup := by
  have correlates : samplePlan.Correlates String := generate_correlates sample_generated
  refine ⟨correlates.keys overtaken_reachable (by decide), ?_⟩
  obtain ⟨server, serves⟩ := sample_built.1
  obtain ⟨client, sends⟩ := sample_built.2 (.loopback 100 server.dispatchTable)
  have reachable := (correlates.numbers sends).follows
    (fun request => (correlates.loopback serves .client 100 request).exchanges samplePlan)
    [.read "fetch" [.null], .read "fetch" [.null]] none {} rfl
  have operations := congrArg (List.map Prod.fst) (sample_sent serves sends
    [.read "fetch" [.null], .read "fetch" [.null]]
    [("Person::fetch", 1), ("Person::fetch", 2)] (by decide +kernel))
  rw [List.map_map] at operations
  refine ⟨server, client, serves, sends, _, rfl, operations, correlates.alone reachable ?_ ?_⟩
  · have count := congrArg List.length operations
    rw [List.length_map] at count
    exact count.trans_lt (by decide)
  · have fetches {request : Request} (member : request ∈ sent .client (client.following none
        [.read "fetch" [.null], .read "fetch" [.null]] {}).journal) :
        request.operation = "Person::fetch" := by
      have listed := List.mem_map_of_mem (f := Prod.fst ∘ Request.key) member
      rw [operations] at listed
      change request.operation ∈ ["Person::fetch", "Person::fetch"] at listed
      simpa only [List.mem_cons, List.not_mem_nil, or_false, or_self] using listed
    intro left here right there
    exact (fetches here).trans (fetches there).symm

/-- A read of the sample and the question of its probe are two requests with one number. -/
theorem sample_numbers_meet : ∃ server client : Factory String,
    Factory.build (sampleHost .server) samplePlan = .ok server ∧
    Factory.buildRemote (sampleHost .client) samplePlan
      (some (.loopback 100 server.dispatchTable)) = .ok client ∧
    ∃ requests, sent .client (client.following none
        [.read "fetch" [.null], .can "can_fetch" [.null]] {}).journal = requests ∧
      requests.map Request.key = [("Person::fetch", 1), ("Person::can_fetch", 1)] ∧
      ¬ (requests.map Request.number).Nodup := by
  obtain ⟨server, serves⟩ := sample_built.1
  obtain ⟨client, sends⟩ := sample_built.2 (.loopback 100 server.dispatchTable)
  have keys := sample_sent serves sends [.read "fetch" [.null], .can "can_fetch" [.null]]
    [("Person::fetch", 1), ("Person::can_fetch", 1)] (by decide +kernel)
  refine ⟨server, client, serves, sends, _, rfl, keys, fun distinct => ?_⟩
  have numbers := congrArg (List.map Prod.snd) keys
  rw [List.map_map] at numbers
  exact absurd (numbers ▸ distinct) (by decide)

end Generation

end DomainFactory
