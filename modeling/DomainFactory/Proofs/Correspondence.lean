import DomainFactory.Proofs.Restoring
import DomainFactory.Message

/-!
# Messages that arrive as they were sent

Values, instances, calls, requests and responses are read back from their JSON as they were, however
deeply they are nested, and no two of them have the same JSON: a missing target, null and the null
value are all told apart. The members of a map have an order only where they are sorted by key; what
is read always is, so those values are the ones that are kept.
-/
namespace DomainFactory

open Json

namespace Value

/-- Members are sorted when the value of each is. -/
theorem membersSorted_iff {members : List (String × Value)} :
    membersSorted members = true ↔ ∀ member ∈ members, member.2.isSorted = true := by
  induction members with
  | nil => simp [membersSorted]
  | cons member members ih => simp [membersSorted, ih]

/-- Items are sorted when each of them is. -/
theorem itemsSorted_iff {items : List Value} :
    itemsSorted items = true ↔ ∀ item ∈ items, item.isSorted = true := by
  induction items with
  | nil => simp [itemsSorted]
  | cons item items ih => simp [itemsSorted, ih]

/-- The map of members with sorted values is sorted. -/
theorem isSorted_ofList {members : List (String × Value)}
    (sorted : membersSorted members = true) :
    (map (Keyed.ofList members).entries).isSorted = true := by
  have kept : membersSorted (Keyed.ofList members).entries = true :=
    membersSorted_iff.mpr fun member present =>
      membersSorted_iff.mp sorted member (Keyed.mem_of_mem_ofList present)
  rw [isSorted, Bool.and_eq_true, decide_eq_true_eq]
  exact ⟨(Keyed.ofList members).ascending, kept⟩

mutual

/-- A sorted value is read back from what is written of it. -/
theorem ofJson_toJson : ∀ {value : Value}, value.isSorted = true → ofJson? value.toJson = some value
  | .null, _ => rfl
  | .bool _, _ => rfl
  | .int value, _ => by
    have read : decode (encode value) = some value := restored_integer value
    have opened : ofJson? (toJson (.int value)) = (decode (encode value)).map .int := rfl
    rw [opened, read, Option.map_some]
  | .float _, _ => rfl
  | .string _, _ => rfl
  | .bytes value, _ => by
    have read : (value.map encode).mapM decode = some value :=
      restored_list fun byte _ => restored_byte byte
    have opened : ofJson? (toJson (.bytes value)) =
        ((value.map encode).mapM decode).map .bytes := rfl
    rw [opened, read, Option.map_some]
  | .array items, sorted => by
    rw [isSorted] at sorted
    have opened : ofJson? (toJson (.array items)) =
        (itemsOfJson? (itemsToJson items)).map .array := by
      simp [toJson, alternative, ofJson?]
    rw [opened, itemsOfJson_itemsToJson sorted, Option.map_some]
  | .map members, sorted => by
    rw [isSorted, Bool.and_eq_true, decide_eq_true_eq] at sorted
    have opened : ofJson? (toJson (.map members)) = (membersOfJson? (membersToJson members)).map
        fun members => .map (Keyed.ofList members).entries := by
      simp [toJson, alternative, ofJson?]
    rw [opened, membersOfJson_membersToJson sorted.2, Option.map_some,
      Keyed.entries_ofList sorted.1]

/-- Sorted items are read back from what is written of them. -/
theorem itemsOfJson_itemsToJson : ∀ {items : List Value}, itemsSorted items = true →
    itemsOfJson? (itemsToJson items) = some items
  | [], _ => rfl
  | item :: items, sorted => by
    rw [itemsSorted, Bool.and_eq_true] at sorted
    simp [itemsToJson, itemsOfJson?, ofJson_toJson sorted.1, itemsOfJson_itemsToJson sorted.2]

/-- Members with sorted values are read back from what is written of them. -/
theorem membersOfJson_membersToJson : ∀ {members : List (String × Value)},
    membersSorted members = true → membersOfJson? (membersToJson members) = some members
  | [], _ => rfl
  | (key, value) :: members, sorted => by
    rw [membersSorted, Bool.and_eq_true] at sorted
    simp [membersToJson, membersOfJson?, ofJson_toJson sorted.1,
      membersOfJson_membersToJson sorted.2]

end

/-- Items are read one by one. -/
theorem itemsOfJson_eq_mapM (items : List Json) : itemsOfJson? items = items.mapM ofJson? := by
  induction items with
  | nil => rfl
  | cons item items ih => simp [itemsOfJson?, ih]

/-- Members are read one by one. -/
theorem membersOfJson_eq_mapM (members : List (String × Json)) :
    membersOfJson? members =
      members.mapM fun member => (ofJson? member.2).map (member.1, ·) := by
  induction members with
  | nil => rfl
  | cons member members ih =>
    cases read : ofJson? member.2 <;> simp [membersOfJson?, ih, read]

/-- A value that is read has no maps in it, or holds what is read from the parts of its JSON. -/
theorem ofJson_cases {json : Json} {value : Value} (found : ofJson? json = some value) :
    value.isSorted = true ∨
      (∃ tag items values, json = .object [(tag, .array items)] ∧
        itemsOfJson? items = some values ∧ value = .array values) ∨
      ∃ tag members values, json = .object [(tag, .object members)] ∧
        membersOfJson? members = some values ∧ value = .map (Keyed.ofList values).entries := by
  unfold ofJson? at found
  split at found
  · cases found
    exact .inl rfl
  · split at found
    case h_3 | h_7 =>
      obtain ⟨content, _, rfl⟩ := Option.map_eq_some_iff.mp found
      exact .inl rfl
    case h_8 tag _ items =>
      obtain ⟨values, read, rfl⟩ := Option.map_eq_some_iff.mp found
      exact .inr (.inl ⟨_, _, values, rfl, read, rfl⟩)
    case h_9 =>
      obtain ⟨values, read, rfl⟩ := Option.map_eq_some_iff.mp found
      exact .inr (.inr ⟨_, _, values, rfl, read, rfl⟩)
    case h_10 => cases found
    all_goals
      cases found
      exact .inl rfl
  · cases found

/-- What is read is sorted. -/
theorem isSorted_of_ofJson {json : Json} {value : Value} (found : ofJson? json = some value) :
    value.isSorted = true := by
  rcases ofJson_cases found with flat | ⟨tag, items, values, written, read, rfl⟩ |
    ⟨tag, members, values, written, read, rfl⟩
  · exact flat
  · rw [isSorted, itemsSorted_iff]
    intro value member
    rw [itemsOfJson_eq_mapM] at read
    obtain ⟨item, present, found⟩ := exists_of_forall₂ (Option.mapM_eq_some.mp read) member
    have inside : sizeOf item < sizeOf json := by
      have smaller := List.sizeOf_lt_of_mem present
      simp [written]
      omega
    exact isSorted_of_ofJson found
  · refine isSorted_ofList (membersSorted_iff.mpr fun value member => ?_)
    rw [membersOfJson_eq_mapM] at read
    obtain ⟨⟨key, part⟩, present, given⟩ := exists_of_forall₂ (Option.mapM_eq_some.mp read) member
    obtain ⟨content, found, rfl⟩ := Option.map_eq_some_iff.mp given
    have inside : sizeOf part < sizeOf json := by
      have smaller := List.sizeOf_lt_of_mem present
      simp [written] at smaller ⊢
      omega
    exact isSorted_of_ofJson found
termination_by sizeOf json

/-- Values whose maps are sorted are kept. -/
theorem lossless : Lossless Value (·.isSorted = true) :=
  .of isSorted_of_ofJson ofJson_toJson

end Value

/-- Whether the maps in an instance are sorted. -/
def Entity.isSorted (entity : Entity) : Bool := Value.membersSorted entity.fields.entries

/-- Whether the maps in an output are sorted. -/
def Output.isSorted : Output → Bool
  | .produced entity => entity.isSorted
  | .computed value => value.isSorted

/-- Whether the maps in a reply are sorted. -/
def Reply.isSorted : Reply → Bool
  | .completed output => output.all Output.isSorted
  | .denied _ | .probed _ => true

/-- Whether the maps in a call are sorted. -/
def Call.isSorted (call : Call) : Bool :=
  call.target.all Entity.isSorted && call.arguments.all Value.isSorted

/-- Whether the maps in a request are sorted. -/
def Request.isSorted (request : Request) : Bool := request.call.isSorted

/-- Whether the maps in a response are sorted. -/
def Response.isSorted (response : Response) : Bool := response.reply.isSorted

/-- Save states are restored. -/
@[simp] theorem SaveState.restored (state : SaveState) : Restored state :=
  restored_record rfl (by decide) (by simp)

/-- Verdicts are restored. -/
@[simp] theorem Verdict.restored (verdict : Verdict) : Restored verdict :=
  restored_record rfl (by decide) (by simp)

/-- Instances whose maps are sorted are kept. -/
theorem Entity.lossless : Lossless Entity (·.isSorted = true) := by
  have fields := Value.lossless.keyed
  refine .of ?_ ?_
  · intro json entity found
    obtain ⟨slots, _, made⟩ := Option.bind_eq_some_iff.mp found
    split at made
    · simp only [Option.bind_eq_bind, Option.bind_eq_some_iff] at made
      obtain ⟨typeName, _, state, _, map, read, made⟩ := made
      cases made
      exact Value.membersSorted_iff.mpr (fields.of_required read)
    · cases made
  · intro entity sorted
    have restored := fields.restored (Value.membersSorted_iff.mp sorted)
    exact restored_record rfl (by decide) (by simp [restored])

/-- Outputs whose maps are sorted are kept. -/
theorem Output.lossless : Lossless Output (·.isSorted = true) := by
  refine .of ?_ ?_
  · intro json output found
    simp only [decode] at found
    split at found
    · obtain ⟨entity, read, rfl⟩ := Option.map_eq_some_iff.mp found
      exact Entity.lossless.admitted read
    · obtain ⟨value, read, rfl⟩ := Option.map_eq_some_iff.mp found
      exact Value.lossless.admitted read
    · cases found
  · intro output sorted
    cases output with
    | produced entity => exact (Entity.lossless.restored sorted).map Output.produced
    | computed value => exact (Value.lossless.restored sorted).map Output.computed

/-- Replies whose maps are sorted are kept. -/
theorem Reply.lossless : Lossless Reply (·.isSorted = true) := by
  have outputs : Lossless (Option Output) _ := Output.lossless.option fun output => by
    cases output <;> simp [encode, alternative]
  refine .of ?_ ?_
  · intro json reply found
    simp only [decode] at found
    split at found
    · obtain ⟨output, read, rfl⟩ := Option.map_eq_some_iff.mp found
      exact (Option.all_eq_true _ _).mpr (outputs.admitted read)
    · obtain ⟨verdict, read, rfl⟩ := Option.map_eq_some_iff.mp found
      rfl
    · obtain ⟨verdict, read, rfl⟩ := Option.map_eq_some_iff.mp found
      rfl
    · cases found
  · intro reply sorted
    cases reply with
    | completed output =>
      have given := (Option.all_eq_true _ _).mp sorted
      exact (outputs.restored given).map Reply.completed
    | denied verdict => exact verdict.restored.map Reply.denied
    | probed verdict => exact verdict.restored.map Reply.probed

/-- The maps in a call are sorted when those in its target and in its arguments are. -/
theorem Call.isSorted_iff {call : Call} : call.isSorted = true ↔
    (∀ target, call.target = some target → target.isSorted = true) ∧
      ∀ argument ∈ call.arguments, argument.isSorted = true := by
  rw [isSorted, Bool.and_eq_true, Option.all_eq_true, List.all_eq_true]

/-- Optional targets whose maps are sorted are kept. -/
theorem Entity.lossless_optional : Lossless (Option Entity) fun optional =>
    ∀ entity, optional = some entity → entity.isSorted = true :=
  Entity.lossless.option fun _ => by simp [encode, record]

/-- Calls whose maps are sorted are kept. -/
theorem Call.lossless : Lossless Call (·.isSorted = true) := by
  refine .of ?_ ?_
  · intro json call found
    obtain ⟨slots, _, made⟩ := Option.bind_eq_some_iff.mp found
    split at made
    · simp only [Option.bind_eq_bind, Option.bind_eq_some_iff] at made
      obtain ⟨target, aimed, values, given, made⟩ := made
      cases made
      exact isSorted_iff.mpr ⟨Entity.lossless_optional.of_nullable nofun aimed,
        Value.lossless.list.of_required given⟩
    · cases made
  · intro call sorted
    obtain ⟨aimed, given⟩ := isSorted_iff.mp sorted
    have target := Entity.lossless_optional.restored aimed
    have arguments := Value.lossless.list.restored given
    exact restored_record rfl (by decide) (by simp [target, arguments])

/-- Requests whose maps are sorted are kept. -/
theorem Request.lossless : Lossless Request (·.isSorted = true) := by
  refine .of ?_ ?_
  · intro json request found
    obtain ⟨slots, _, made⟩ := Option.bind_eq_some_iff.mp found
    split at made
    · simp only [Option.bind_eq_bind, Option.bind_eq_some_iff] at made
      obtain ⟨number, _, operation, _, target, aimed, values, given, made⟩ := made
      cases made
      exact Call.isSorted_iff.mpr ⟨Entity.lossless_optional.of_nullable nofun aimed,
        Value.lossless.list.of_required given⟩
    · cases made
  · intro request sorted
    obtain ⟨aimed, given⟩ := Call.isSorted_iff.mp sorted
    have target : Restored request.target := Entity.lossless_optional.restored aimed
    have arguments : Restored request.arguments := Value.lossless.list.restored given
    exact restored_record rfl (by decide) (by simp [target, arguments])

/-- Responses whose maps are sorted are kept. -/
theorem Response.lossless : Lossless Response (·.isSorted = true) := by
  refine .of ?_ ?_
  · intro json response found
    obtain ⟨slots, _, made⟩ := Option.bind_eq_some_iff.mp found
    split at made
    · simp only [Option.bind_eq_bind, Option.bind_eq_some_iff] at made
      obtain ⟨number, _, reply, given, made⟩ := made
      cases made
      exact Reply.lossless.of_required given
    · cases made
  · intro response sorted
    have reply : Restored response.reply := Reply.lossless.restored sorted
    exact restored_record rfl (by decide) (by simp [reply])

/-- Messages and what they carry are kept by their forms: whatever is read has its maps sorted, what
has its maps sorted is read back as it was, and no two such are written alike. -/
theorem messages_lossless :
    Lossless Request (·.isSorted = true) ∧ Lossless Response (·.isSorted = true) ∧
      Lossless Call (·.isSorted = true) ∧ Lossless Entity (·.isSorted = true) ∧
      Lossless Value (·.isSorted = true) :=
  ⟨Request.lossless, Response.lossless, Call.lossless, Entity.lossless, Value.lossless⟩

/-- A request for a write, with null in and next to a map, and the ends of the ranges of integers
and bytes. -/
def nestedRequest : Request where
  number := 18446744073709551615
  operation := "Person::insert"
  target := some {
    typeName := "Person"
    state := .fresh
    fields := .ofList
      [("Null", .null), ("", .map [("Map", .array [.null]), ("é", .bytes [0, 255])])] }
  arguments := [.null, .int (-9223372036854775808), .array [.map [], .string "Null"]]

/-- The nested request is read back as it was, and its JSON tells it from the same request without a
target. -/
theorem nestedRequest_arrives :
    nestedRequest.isSorted = true ∧ decode (encode nestedRequest) = some nestedRequest ∧
      encode { nestedRequest with target := none } ≠ encode nestedRequest := by
  have sorted : nestedRequest.isSorted = true := by decide
  have without : { nestedRequest with target := none }.isSorted = true := by decide
  refine ⟨sorted, messages_lossless.1.restored sorted, fun same => ?_⟩
  have equal := messages_lossless.1.apart without sorted same
  cases congrArg Request.target equal

end DomainFactory
