import DomainFactory.Host

/-!
# Itineraries

A method calls the code of its host at stations in a fixed order. A run is orderly when callbacks
begin in that order, each at most once, and none begins before the one ahead of it has passed and
the code behind it has granted that the run go on. What a host grants is read off its code, not off
the journal.
-/
namespace DomainFactory

variable {σ : Type}

/-- A place where a run calls code of its host. -/
inductive Station where
  /-- Looks up the service for a type. -/
  | resolve (type : String)
  /-- Asks the check with a key. -/
  | check (key : String)
  /-- Runs the hook before the handler of an operation. -/
  | before (operation : Operation)
  /-- Runs the handler with a key. -/
  | handler (key : String)
  /-- Runs the hook after the handler of an operation. -/
  | after (operation : Operation)
  /-- Hands a request for an operation to the dispatcher. -/
  | dispatch (operation : String)
deriving DecidableEq, Repr

/-- The place of a callback. -/
def Callback.station : Callback σ → Station
  | .resolve type => .resolve type
  | .check question => .check question.key
  | .before operation _ => .before operation
  | .handler key _ => .handler key
  | .after operation _ => .after operation
  | .dispatch request => .dispatch request.operation

/-- The callback that begins with an entry. -/
def Entry.begun? (entry : Entry σ) : Option (Callback σ) :=
  match entry.event with
  | .began callback => some callback
  | _ => none

/-- The places of the callbacks that begin in a journal, in order. -/
def visited (news : Journal σ) : List Station :=
  news.filterMap fun entry => entry.begun?.map Callback.station

/-- Whether the code behind a callback, after all that has happened, lets the run go on: a service
is found, a check answers and allows, a hook or a handler ends without a fault. Nothing of the host
answers a request. -/
def Host.Grants (host : Host σ) (past : Journal σ) : Callback σ → Prop
  | .resolve type => ∃ service, host.provider past type = .ok service
  | .check question => ∃ checker, host.checker? question.key = some checker ∧
      ∃ verdict, (checker past question).result = .ok verdict ∧ verdict.allowed = true
  | .before operation target => (host.hooks.before past operation target).result = .ok ()
  | .handler key invocation => ∃ handler, host.handler? key = some handler ∧
      ∃ completion, (handler past invocation).result = .ok completion
  | .after operation output => (host.hooks.after past operation output).result = .ok ()
  | .dispatch _ => False

/-- The code behind a callback that begins with an entry lets the run go on, and the callback has
passed before any other begins. -/
structure Host.Clears (host : Host σ) (past : Journal σ) (entry : Entry σ) (callback : Callback σ)
    (late : Journal σ) : Prop where
  grants : host.Grants past callback
  passed : ∃ own rest, late = own ++ ⟨entry.side, .passed callback⟩ :: rest ∧ visited own = []

/-- Callbacks begin in the order of the stations, and one begins only when those before it are
cleared. -/
structure Orderly (host : Host σ) (past : Journal σ) (stations : List Station) (news : Journal σ) :
    Prop where
  order : visited news <+: stations
  cleared : ∀ early entry late callback, news = early ++ entry :: late →
    entry.begun? = some callback → visited late ≠ [] →
      host.Clears (past ++ early) entry callback late

/-- Callbacks begin at all stations in their order, and all of them are cleared. -/
structure Completes (host : Host σ) (past : Journal σ) (stations : List Station)
    (news : Journal σ) : Prop where
  order : visited news = stations
  cleared : ∀ early entry late callback, news = early ++ entry :: late →
    entry.begun? = some callback → host.Clears (past ++ early) entry callback late

/-- Journals are visited one after another. -/
theorem visited_append (first second : Journal σ) :
    visited (first ++ second) = visited first ++ visited second := List.filterMap_append

/-- An entry in which a callback begins visits its station first. -/
theorem visited_cons {entry : Entry σ} {callback : Callback σ} (late : Journal σ)
    (begun : entry.begun? = some callback) :
    visited (entry :: late) = callback.station :: visited late := by
  unfold visited
  rw [List.filterMap_cons, begun, Option.map_some]

variable {host : Host σ} {past news later : Journal σ} {stations more : List Station}

/-- A cleared callback stays so whatever happens behind. -/
theorem Host.Clears.append {entry : Entry σ} {callback : Callback σ} {late : Journal σ}
    (clears : host.Clears past entry callback late) (more : Journal σ) :
    host.Clears past entry callback (late ++ more) := by
  obtain ⟨own, rest, split, quiet⟩ := clears.passed
  refine ⟨clears.grants, own, rest ++ more, ?_, quiet⟩
  rw [split, List.append_assoc, List.cons_append]

/-- Nothing is orderly. -/
theorem orderly_nil : Orderly host past stations [] := by
  refine ⟨List.nil_prefix, ?_⟩
  intro early entry late callback split
  cases early <;> cases split

/-- Nothing completes no stations. -/
theorem completes_nil : Completes host past [] [] := by
  refine ⟨rfl, ?_⟩
  intro early entry late callback split
  cases early <;> cases split

/-- What is orderly stays so with more stations ahead. -/
theorem Orderly.extend (orderly : Orderly host past stations news) (more : List Station) :
    Orderly host past (stations ++ more) news :=
  ⟨orderly.order.trans (List.prefix_append stations more), orderly.cleared⟩

/-- A split of two journals is a split of one of them. -/
theorem split_append {first second early late : Journal σ} {entry : Entry σ}
    (split : first ++ second = early ++ entry :: late) :
    (∃ rest, first = early ++ entry :: rest ∧ late = rest ++ second) ∨
      ∃ rest, early = first ++ rest ∧ second = rest ++ entry :: late := by
  rcases List.append_eq_append_iff.mp split with ⟨rest, here, there⟩ | ⟨rest, here, there⟩
  · exact Or.inr ⟨rest, here, there⟩
  · cases rest with
    | nil =>
      rw [List.append_nil] at here
      rw [List.nil_append] at there
      exact Or.inr ⟨[], by rw [List.append_nil, here], there.symm⟩
    | cons head rest =>
      rw [List.cons_append] at there
      obtain ⟨same, behind⟩ := List.cons.inj there
      exact Or.inl ⟨rest, by rw [here, same], behind⟩

/-- What completes its stations may be followed by what completes others. -/
theorem Completes.append (first : Completes host past stations news)
    (second : Completes host (past ++ news) more later) :
    Completes host past (stations ++ more) (news ++ later) := by
  refine ⟨?_, ?_⟩
  · rw [visited_append, first.order, second.order]
  · intro early entry late callback split begun
    rcases split_append split with ⟨rest, here, behind⟩ | ⟨rest, here, there⟩
    · rw [behind]
      exact (first.cleared early entry rest callback here begun).append later
    · rw [here, ← List.append_assoc]
      exact second.cleared rest entry late callback there begun

/-- What completes its stations may be followed by what is orderly at others. -/
theorem Completes.followed (first : Completes host past stations news)
    (second : Orderly host (past ++ news) more later) :
    Orderly host past (stations ++ more) (news ++ later) := by
  refine ⟨?_, ?_⟩
  · rw [visited_append, first.order]
    exact List.prefix_append_right_inj stations |>.mpr second.order
  · intro early entry late callback split begun ahead
    rcases split_append split with ⟨rest, here, behind⟩ | ⟨rest, here, there⟩
    · rw [behind]
      exact (first.cleared early entry rest callback here begun).append later
    · rw [here, ← List.append_assoc]
      exact second.cleared rest entry late callback there begun ahead

/-- When a callback begins, all that began before it are cleared. -/
theorem Orderly.completes_before {early late : Journal σ} {entry : Entry σ} {callback : Callback σ}
    (orderly : Orderly host past stations (early ++ entry :: late))
    (begun : entry.begun? = some callback) : Completes host past (visited early) early := by
  refine ⟨rfl, ?_⟩
  intro first inner rest other split begins
  have whole : early ++ entry :: late = first ++ inner :: (rest ++ entry :: late) := by
    rw [split, List.append_assoc, List.cons_append]
  have ahead : visited (rest ++ entry :: late) ≠ [] := by
    rw [visited_append, visited_cons late begun]
    exact List.append_ne_nil_of_right_ne_nil _ (List.cons_ne_nil _ _)
  obtain ⟨grants, own, tail, passes, quiet⟩ :=
    orderly.cleared first inner _ other whole begins ahead
  refine ⟨grants, ?_⟩
  rcases split_append passes with ⟨more, here, _⟩ | ⟨more, here, there⟩
  · exact ⟨own, more, here, quiet⟩
  · -- The callback cannot have passed behind the entry, since nothing begins until it has.
    cases more with
    | nil =>
      obtain ⟨same, _⟩ := List.cons.inj there
      rw [same] at begun
      cases begun
    | cons head more =>
      obtain ⟨same, _⟩ := List.cons.inj there
      rw [here, ← same, visited_append, visited_cons more begun] at quiet
      cases (List.append_eq_nil_iff.mp quiet).2

/-- Entries in which no callback begins split into such entries. -/
theorem visited_eq_nil_of_split {early late : Journal σ} {entry : Entry σ}
    (quiet : visited (early ++ entry :: late) = []) : entry.begun? = none := by
  cases begun : entry.begun? with
  | none => rfl
  | some callback =>
    rw [visited_append, visited_cons late begun] at quiet
    cases (List.append_eq_nil_iff.mp quiet).2

/-- One callback with entries behind it in which none begins is orderly at its station. -/
theorem orderly_single {entry : Entry σ} {callback : Callback σ} {rest : Journal σ}
    (begun : entry.begun? = some callback) (quiet : visited rest = []) :
    Orderly host past [callback.station] (entry :: rest) := by
  have order : visited (entry :: rest) = [callback.station] := by
    rw [visited_cons rest begun, quiet]
  refine ⟨order ▸ List.prefix_refl _, ?_⟩
  intro early other late asked split begins ahead
  cases early with
  | nil =>
    obtain ⟨_, behind⟩ := List.cons.inj split
    rw [← behind] at ahead
    exact absurd quiet ahead
  | cons head early =>
    obtain ⟨_, behind⟩ := List.cons.inj split
    rw [behind] at quiet
    rw [visited_eq_nil_of_split quiet] at begins
    cases begins

/-- One callback that is cleared, with entries behind it in which none begins, completes its
station. -/
theorem completes_single {entry : Entry σ} {callback : Callback σ} {rest : Journal σ}
    (begun : entry.begun? = some callback) (quiet : visited rest = [])
    (clears : host.Clears past entry callback rest) :
    Completes host past [callback.station] (entry :: rest) := by
  refine ⟨?_, ?_⟩
  · rw [visited_cons rest begun, quiet]
  · intro early other late asked split begins
    cases early with
    | nil =>
      obtain ⟨same, behind⟩ := List.cons.inj split
      rw [← same, begun] at begins
      cases begins
      rw [List.append_nil, ← same, ← behind]
      exact clears
    | cons head early =>
      obtain ⟨_, behind⟩ := List.cons.inj split
      rw [behind] at quiet
      rw [visited_eq_nil_of_split quiet] at begins
      cases begins

end DomainFactory
