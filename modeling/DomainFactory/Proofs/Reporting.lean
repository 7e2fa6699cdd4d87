import DomainFactory.Proofs.Chains
import DomainFactory.Proofs.Marking

/-!
# Reporting of missing checks

An operation without a check is open to everyone, so a check that a policy seems to declare must not
get lost without a word. Each method of a policy is accounted for: it has a check, or its problem is
recorded, or it does not ask for one. Where the methods of a policy are not looked at, that is
recorded as well. All this takes two names: where one name marks operations and checks, a method
that asks for a check counts as one that marks an operation, and nothing is recorded of it.
-/
namespace DomainFactory

namespace Diagnostic

/-- The diagnostic records a problem of a type at one of its members. -/
def Records (diagnostic : Diagnostic) (problem : Problem) (typeName : String)
    (member : Option String) : Prop :=
  diagnostic.problem = problem ∧ diagnostic.typeName = typeName ∧ diagnostic.member = member

end Diagnostic

namespace Extraction

variable {config : Config} {owning declaring text : String}

/-- What a method text of a policy contributes to the checks and to the problems. Only where one
name marks operations and checks is a text passed over that has an attribute of that name. -/
inductive Accounted (config : Config) (owning declaring text : String) :
    List Check → List Diagnostic → Prop where
  /-- The text is no signature, and that is recorded. -/
  | unreadable {error : SignatureError} {problem : Diagnostic}
    (refused : Signature.parse config text = .error error)
    (recorded : problem.Records .unresolvableSyntax owning (likelyName? text)) :
    Accounted config owning declaring text [] [problem]
  /-- None of its attributes has the name that marks checks. -/
  | unmarked {signature : Signature} (parsed : Signature.parse config text = .ok signature)
    (free : ∀ given ∈ Signature.attributes text, ¬ given.marksCheck config = true) :
    Accounted config owning declaring text [] []
  /-- It is marked and has one check; names that are not known are recorded besides. -/
  | checked {signature : Signature} {given : Attribute} {check : Check}
    {problems : List Diagnostic} (apart : config.factoryMarker ≠ config.authorizeMarker)
    (parsed : Signature.parse config text = .ok signature)
    (listed : given ∈ Signature.attributes text) (marks : given.marksCheck config = true)
    (names : check.declaringType = declaring ∧ check.method = signature.name)
    (recorded : ∀ problem ∈ problems,
      problem.Records .unknownMarker owning (some signature.name)) :
    Accounted config owning declaring text [check] problems
  /-- It is marked and has no check, and something is recorded under its name. -/
  | idle {signature : Signature} {given : Attribute} {problems : List Diagnostic}
    (apart : config.factoryMarker ≠ config.authorizeMarker)
    (parsed : Signature.parse config text = .ok signature)
    (listed : given ∈ Signature.attributes text) (marks : given.marksCheck config = true)
    (noted : problems ≠ [])
    (recorded : ∀ problem ∈ problems,
      problem.Records .unknownMarker owning (some signature.name)) :
    Accounted config owning declaring text [] problems
  /-- It is marked by a name that marks operations too; it has no check, and nothing is recorded. -/
  | overlooked {signature : Signature} {given : Attribute}
    (merged : config.factoryMarker = config.authorizeMarker)
    (parsed : Signature.parse config text = .ok signature)
    (listed : given ∈ Signature.attributes text) (marks : given.marksCheck config = true) :
    Accounted config owning declaring text [] []

/-- A method text that can be read is accounted for. -/
theorem checkOf_accounted {signature : Signature}
    (parsed : Signature.parse config text = .ok signature) :
    Accounted config owning declaring text (checkOf owning declaring signature).result
      (checkOf owning declaring signature).problems := by
  obtain ⟨_, said, merged⟩ := Signature.says_of_parse parsed
  by_cases same : config.factoryMarker = config.authorizeMarker
  · unfold checkOf
    rw [merged same]
    by_cases marked : ∃ given ∈ Signature.attributes text, given.marksCheck config = true
    · obtain ⟨given, listed, marks⟩ := marked
      exact .overlooked same parsed listed marks
    · exact .unmarked parsed fun given listed marks => marked ⟨given, listed, marks⟩
  · have marked := (said same).eq_none_iff
    unfold checkOf
    cases found : signature.check with
    | none =>
      have free := List.filter_eq_nil_iff.mp (marked.mp found)
      exact .unmarked parsed free
    | some markers =>
      have present : (Signature.attributes text).filter (·.marksCheck config) ≠ [] := by
        intro missing
        rw [marked.mpr missing] at found
        cases found
      obtain ⟨given, member⟩ := List.exists_mem_of_ne_nil _ present
      obtain ⟨listed, marks⟩ := List.mem_filter.mp member
      have recorded (message : String → String) : ∀ problem ∈ markers.unknown.map fun name =>
          (⟨.unknownMarker, owning, some signature.name, message name⟩ : Diagnostic),
          problem.Records .unknownMarker owning (some signature.name) := by
        intro problem noted
        obtain ⟨name, _, rfl⟩ := List.mem_map.mp noted
        exact ⟨rfl, rfl, rfl⟩
      by_cases governs : markers.mask.isEmpty = true
      · simp only [governs, ↓reduceIte]
        by_cases known : markers.unknown.isEmpty = true
        · rw [if_pos known]
          refine .idle same parsed listed marks (List.cons_ne_nil _ _) ?_
          intro problem noted
          rw [List.mem_singleton.mp noted]
          exact ⟨rfl, rfl, rfl⟩
        · rw [if_neg known]
          refine .idle same parsed listed marks ?_ (recorded _)
          simpa only [ne_eq, List.map_eq_nil_iff, List.isEmpty_iff] using known
      · simp only [governs, Bool.false_eq_true, ↓reduceIte]
        exact .checked same parsed listed marks ⟨rfl, rfl⟩ (recorded _)

/-- The checks and the problems of the method texts of a policy are what the texts contribute, one
after another. -/
theorem checksFrom_accounted (config : Config) (owning : String) (texts : List (String × String)) :
    ∃ parts : List (List Check × List Diagnostic),
      List.Forall₂ (fun text part => Accounted config owning text.1 text.2 part.1 part.2)
        texts parts ∧
      (checksFrom config owning texts).result = parts.flatMap Prod.fst ∧
      (checksFrom config owning texts).problems = parts.flatMap Prod.snd := by
  induction texts with
  | nil => exact ⟨[], .nil, rfl, rfl⟩
  | cons text texts ih =>
    obtain ⟨declaring, text⟩ := text
    obtain ⟨parts, accounts, result, problems⟩ := ih
    unfold checksFrom
    cases parsed : Signature.parse config text with
    | error error =>
      refine ⟨([], [_]) :: parts, .cons ?_ accounts, result, congrArg (_ :: ·) problems⟩
      exact .unreadable parsed ⟨rfl, rfl, rfl⟩
    | ok signature =>
      refine ⟨(_, _) :: parts, .cons ?_ accounts, congrArg (_ ++ ·) result,
        congrArg (_ ++ ·) problems⟩
      exact checkOf_accounted parsed

/-- Why a base chain with an association has the checks that it has. -/
inductive Explained (catalog : Catalog) (config : Config) (chain : Chain) :
    List Check → List Diagnostic → Prop where
  /-- The nearest member with an association has several, and that is recorded. -/
  | several {owner member : Surface} {problem : Diagnostic}
    (front : chain.members.head? = some owner) (nearest : Nearest chain member)
    (many : 2 ≤ member.policies.length)
    (recorded : problem.Records .multiplePolicies owner.name none) :
    Explained catalog config chain [] [problem]
  /-- Its policy has no base chain, and that is recorded. -/
  | unresolved {owner member : Surface} {policy : String} {error : GenerationError}
    {problem : Diagnostic} (front : chain.members.head? = some owner)
    (nearest : Nearest chain member) (single : member.policies = [policy])
    (broken : catalog.chain policy = .error error)
    (recorded : problem.Records .unresolvedPolicy owner.name (some policy)) :
    Explained catalog config chain [] [problem]
  /-- The whole chain of its policy is walked: a base that is not declared is recorded, and every
  method is accounted for. -/
  | walked {owner member : Surface} {policy : String} {found : Chain} {missing : List Diagnostic}
    {parts : List (List Check × List Diagnostic)}
    (front : chain.members.head? = some owner) (nearest : Nearest chain member)
    (single : member.policies = [policy]) (chained : catalog.chain policy = .ok found)
    (climbs : catalog.Climbs (some policy) found.members found.unresolved)
    (recorded : List.Forall₂ (fun base problem =>
      Diagnostic.Records problem .unresolvedBase owner.name (some base))
      found.unresolved.toList missing)
    (accounts : List.Forall₂ (fun text part =>
      Accounted config owner.name text.1 text.2 part.1 part.2) (memberTexts found.members) parts) :
    Explained catalog config chain (parts.flatMap Prod.fst) (missing ++ parts.flatMap Prod.snd)

/-- The checks of a base chain with an association are explained. -/
theorem checks_explained (catalog : Catalog) (config : Config) {chain : Chain} {member : Surface}
    (present : member ∈ chain.members) (associated : member.policies ≠ []) :
    Explained catalog config chain (checks catalog config chain).result
      (checks catalog config chain).problems := by
  unfold checks
  cases front : chain.members.head? with
  | none =>
    rw [List.head?_eq_none_iff.mp front] at present
    cases present
  | some owner =>
    cases found : chain.members.find? (!·.policies.isEmpty) with
    | none =>
      have without := List.find?_eq_none.mp found member present
      exact absurd (by simpa using without) associated
    | some nearest =>
      have near := nearest_of_find found
      match policies : nearest.policies with
      | [] =>
        obtain ⟨_, _, _, _, some⟩ := near
        exact absurd policies some
      | [policy] =>
        simp only [policies, policyChecks]
        cases chained : catalog.chain policy with
        | error error => exact .unresolved front near policies chained ⟨rfl, rfl, rfl⟩
        | ok walked =>
          obtain ⟨parts, accounts, result, problems⟩ :=
            checksFrom_accounted config owner.name (memberTexts walked.members)
          simp only [result, problems]
          refine .walked front near policies chained (Catalog.chain_climbs chained) ?_ accounts
          rw [List.forall₂_map_right_iff]
          exact List.forall₂_same.mpr fun base _ => ⟨rfl, rfl, rfl⟩
      | first :: second :: rest =>
        simp only [policies]
        refine .several front near ?_ ⟨rfl, rfl, rfl⟩
        rw [policies, List.length_cons, List.length_cons]
        omega

end Extraction

namespace Generation

/-- No check is lost without a word: the checks of a type whose base chain has an association are
explained, and they and their problems stand in the generated plan. -/
theorem generate_explains_checks (config : Config) (catalog : Catalog) (typeName : String)
    (chain : Chain) (member : Surface) (chained : catalog.chain typeName = .ok chain)
    (present : member ∈ chain.members) (associated : member.policies ≠ []) :
    Extraction.Explained catalog config chain (Extraction.checks catalog config chain).result
        (Extraction.checks catalog config chain).problems ∧
      ∃ plan, generate config catalog typeName = .ready plan ∧
        plan.checks = (Extraction.checks catalog config chain).result ∧
        (Extraction.checks catalog config chain).problems ⊆ plan.diagnostics := by
  refine ⟨Extraction.checks_explained catalog config present associated, ?_⟩
  refine ⟨planOf config typeName (findings catalog config chain), ?_, rfl, ?_⟩
  · rw [generate, chained]
  · intro problem noted
    show problem ∈ (findings catalog config chain).problems ++ _
    apply List.mem_append_left
    exact List.mem_append_right _ noted

/-- A policy with a base that is not declared and one method of each sort: no signature, a marker
without a name, a marker with an unknown name, no marker, and a check. -/
def sampleGappyPolicy : Surface where
  name := "PersonAuth"
  base := some "Missing"
  methods := ["fn broken(", "#[authorize] fn bare(&self)", "#[authorize(reed)] fn mistyped(&self)",
    "fn helper(&self)", "#[authorize(read)] fn can_read(&self, id: i64)"]

/-- The sample with that policy. -/
def sampleGappyCatalog : Catalog := Catalog.empty.insertAll [samplePerson, sampleGappyPolicy]

/-- The checks of the sample with that policy, and its problems at its members. -/
def sampleGaps : List Check × List (Problem × Option String) :=
  let checks := Extraction.checks sampleGappyCatalog {} ⟨[samplePerson], none⟩
  (checks.result, checks.problems.map fun noted => (noted.problem, noted.member))

/-- Of the gappy policy one check remains, and each gap is recorded. -/
theorem sample_explains_checks :
    sampleGaps = (
      [⟨.ofFamily .read, "PersonAuth", "can_read", [⟨"id", "i64", .business⟩], false, false⟩],
      [(.unresolvedBase, some "Missing"), (.unresolvableSyntax, some "broken"),
        (.unknownMarker, some "bare"), (.unknownMarker, some "mistyped")]) ∧
    Extraction.Explained sampleGappyCatalog {} ⟨[samplePerson], none⟩
      (Extraction.checks sampleGappyCatalog {} ⟨[samplePerson], none⟩).result
      (Extraction.checks sampleGappyCatalog {} ⟨[samplePerson], none⟩).problems := by
  have chained : sampleGappyCatalog.chain "Person" = .ok ⟨[samplePerson], none⟩ := by
    decide +kernel
  refine ⟨by decide +kernel, ?_⟩
  exact (generate_explains_checks {} sampleGappyCatalog "Person" ⟨[samplePerson], none⟩ samplePerson
    chained List.mem_cons_self (List.cons_ne_nil _ _)).1

/-- Settings under which one name marks operations and checks. -/
def mergedConfig : Config where
  factoryMarker := "authorize"

/-- A type whose read is marked by that name. -/
def mergedPerson : Surface where
  name := "Person"
  policies := ["PersonAuth"]
  factory := true
  methods := ["#[authorize(fetch)] fn fetch(&mut self, id: i64)"]

/-- The text of a check of that read. -/
def mergedCheck : String := "#[authorize(read)] fn can_read(&self, id: i64)"

/-- The policy with that check. -/
def mergedPolicy : Surface where
  name := "PersonAuth"
  methods := [mergedCheck]

/-- The type and its policy. -/
def mergedCatalog : Catalog := Catalog.empty.insertAll [mergedPerson, mergedPolicy]

/-- Under one name for both sorts of markers the only method of the policy can be read and carries
its marker, but the read has no check and nothing is recorded. -/
theorem merged_marker_silent :
    mergedCatalog.chain "Person" = .ok ⟨[mergedPerson], none⟩ ∧
    mergedPerson.policies = ["PersonAuth"] ∧
    mergedCatalog.chain "PersonAuth" = .ok ⟨[mergedPolicy], none⟩ ∧
    mergedPolicy.methods = [mergedCheck] ∧
    (Signature.parse mergedConfig mergedCheck).isOk = true ∧
    (Signature.attributes mergedCheck).all (·.marksCheck mergedConfig) = true ∧
    (Signature.attributes mergedCheck).length = 1 ∧
    (Extraction.operations mergedConfig ⟨[mergedPerson], none⟩).result.length = 1 ∧
    (Extraction.checks mergedCatalog mergedConfig ⟨[mergedPerson], none⟩).result = [] ∧
    (Extraction.checks mergedCatalog mergedConfig ⟨[mergedPerson], none⟩).problems = [] := by
  refine ⟨by decide +kernel, rfl, by decide +kernel, rfl, by decide +kernel, by decide +kernel,
    by decide +kernel, by decide +kernel, by decide +kernel, ?_⟩
  exact List.isEmpty_iff.mp (by decide +kernel)

end Generation

end DomainFactory
