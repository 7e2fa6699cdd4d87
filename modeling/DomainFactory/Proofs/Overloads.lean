import DomainFactory.Proofs.Declared

/-!
# Keys of handlers

Operations are handled by the method that declares them. A method that its type declares once goes
by its name; overloads go by the number of their parameters, or by their types where two of them
have as many. So the key of an operation says which method of which type it is, and tells overloads
apart unless they declare the same types. That the joined types can be told apart rests on two facts
about canonical texts: none is empty, and none has a comma followed by a space.
-/
namespace DomainFactory.Extraction

open Syntax Text

section Joining

/-- What stands between the types in a key. -/
abbrev separator : List Char := [',', ' ']

/-- A text that can be told from its neighbours in a list. -/
structure IsItem (text : List Char) : Prop where
  /-- It is not empty. -/
  filled : text ≠ []
  /-- It has no separator in it. -/
  whole : ¬ separator <:+: text

/-- A canonical text that is not empty can be told from its neighbours: a comma is no word
character, so no space follows it. -/
theorem isItem_normalize {text : String} (filled : TypeText.normalize text ≠ "") :
    IsItem (TypeText.normalize text).toList where
  filled none := filled (String.toList_eq_nil_iff.mp none)
  whole := by
    rintro ⟨front, back, split⟩
    rw [TypeText.toList_normalize, List.append_assoc] at split
    have comma : TypeText.canonical text.toList = (front ++ [',']) ++ ' ' :: back := by
      rw [← split, List.append_assoc]
      rfl
    have word := (TypeText.canonical_space comma).1
    rw [List.getLast?_concat] at word
    cases word

variable {first second rest more : List Char}

/-- An item ends where the first separator begins. -/
theorem nothing_between {between : List Char} (item : IsItem (first ++ between))
    (same : separator ++ rest = between ++ (separator ++ more)) : between = [] := by
  match between with
  | [] => rfl
  | [c] =>
    simp only [List.cons_append, List.nil_append, List.cons.injEq] at same
    exact absurd same.2.1 (by decide)
  | c :: d :: between =>
    simp only [List.cons_append, List.nil_append, List.cons.injEq] at same
    obtain ⟨rfl, rfl, _⟩ := same
    exact absurd ⟨first, between, by simp⟩ item.whole

/-- Lists with one more item in front are equal only with one item. -/
theorem item_inj (firstItem : IsItem first) (secondItem : IsItem second)
    (same : first ++ separator ++ rest = second ++ separator ++ more) :
    first = second ∧ rest = more := by
  have equal : first = second := by
    simp only [List.append_assoc] at same
    rcases List.append_eq_append_iff.mp same with ⟨between, rfl, behind⟩ | ⟨between, rfl, behind⟩
    · rw [nothing_between secondItem behind, List.append_nil]
    · rw [nothing_between firstItem behind, List.append_nil]
  subst equal
  exact ⟨rfl, List.append_cancel_left same⟩

/-- Joined items are empty only without items. -/
theorem intercalate_ne_nil {texts : List (List Char)} (item : IsItem first) :
    separator.intercalate (first :: texts) ≠ [] := by
  cases texts with
  | nil =>
    rw [List.intercalate_singleton]
    exact item.filled
  | cons next texts =>
    rw [List.intercalate_cons_cons]
    simp [item.filled]

/-- A single item is no joined items. -/
theorem single_ne_intercalate {next : List Char} {texts : List (List Char)} (item : IsItem first) :
    first ≠ separator.intercalate (second :: next :: texts) := by
  rw [List.intercalate_cons_cons]
  intro same
  exact item.whole ⟨second, _, same.symm⟩

/-- Items that are joined can be told apart. -/
theorem intercalate_inj {left right : List (List Char)} (leftItems : ∀ text ∈ left, IsItem text)
    (rightItems : ∀ text ∈ right, IsItem text)
    (same : separator.intercalate left = separator.intercalate right) : left = right := by
  induction left generalizing right with
  | nil =>
    cases right with
    | nil => rfl
    | cons second right =>
      exact absurd same.symm (intercalate_ne_nil (rightItems second List.mem_cons_self))
  | cons first left ih =>
    have firstItem := leftItems first List.mem_cons_self
    cases right with
    | nil => exact absurd same (intercalate_ne_nil firstItem)
    | cons second right =>
      have secondItem := rightItems second List.mem_cons_self
      cases left with
      | nil =>
        rw [List.intercalate_singleton] at same
        cases right with
        | nil => rw [same, List.intercalate_singleton]
        | cons next right => exact absurd same (single_ne_intercalate firstItem)
      | cons after left =>
        cases right with
        | nil =>
          rw [List.intercalate_singleton] at same
          exact absurd same.symm (single_ne_intercalate secondItem)
        | cons next right =>
          rw [List.intercalate_cons_cons, List.intercalate_cons_cons] at same
          obtain ⟨rfl, behind⟩ := item_inj firstItem secondItem same
          rw [ih (fun text member => leftItems text (List.mem_cons_of_mem _ member))
            (fun text member => rightItems text (List.mem_cons_of_mem _ member)) behind]

/-- The types of parameters can be told apart when they are joined. -/
theorem join_inj {left right : List String} (leftItems : ∀ type ∈ left, IsItem type.toList)
    (rightItems : ∀ type ∈ right, IsItem type.toList)
    (same : ", ".intercalate left = ", ".intercalate right) : left = right := by
  rw [← String.toList_inj, String.toList_intercalate, String.toList_intercalate] at same
  refine List.map_injective_iff.mpr (fun _ _ => String.toList_inj.mp) (intercalate_inj ?_ ?_ same)
  · exact List.forall_mem_map.mpr leftItems
  · exact List.forall_mem_map.mpr rightItems

end Joining

section Methods

/-- The operations of a method text, not yet under the keys of their handlers. -/
def operationsIn (config : Config) (owning : String) (index : Nat) (member : String × String) :
    List Operation :=
  match Signature.parse config member.2 with
  | .error _ => []
  | .ok signature => (operationsOf owning member.1 index signature).result

/-- The operations of each method text; methods are counted as they yield operations. -/
def methodsFrom (config : Config) (owning : String) :
    Nat → List (String × String) → List (List Operation)
  | _, [] => []
  | index, member :: members =>
    let found := operationsIn config owning index member
    found :: methodsFrom config owning (if found.isEmpty then index else index + 1) members

/-- Whether an operation is one of the method text at a position. -/
def IsAt (methods : List (List Operation)) (position : Nat) (operation : Operation) : Prop :=
  ∃ found, methods[position]? = some found ∧ operation ∈ found

/-- What an operation has in common with those of other kinds of its method: it has the name and the
types that the text of the method declares. -/
structure Declares (declaring : String) (signature : Signature) (operation : Operation) : Prop where
  /-- The type that declares it. -/
  declaringType : operation.declaringType = declaring
  /-- The name of its method. -/
  method : operation.method = signature.name
  /-- The types of the parameters that its method declares, without the target of a write. -/
  types : declaredTypes operation = signature.parameters.map (·.type)

variable {config : Config} {owning : String} {members : List (String × String)} {index : Nat}
  {found : List Operation} {methods : List (List Operation)} {position : Nat}
  {operation : Operation}

/-- At the first position are the operations of the first method text. -/
@[simp] theorem isAt_zero : IsAt (found :: methods) 0 operation ↔ operation ∈ found := by
  simp [IsAt]

/-- At a later position are the operations of a later method text. -/
@[simp] theorem isAt_succ :
    IsAt (found :: methods) (position + 1) operation ↔ IsAt methods position operation := by
  simp [IsAt]

/-- The operations of method texts are those of the single texts in order. -/
theorem operationsFrom_flatten (index : Nat) :
    (operationsFrom config owning index members).result =
      (methodsFrom config owning index members).flatten := by
  induction members generalizing index with
  | nil => rfl
  | cons member members ih =>
    obtain ⟨declaring, text⟩ := member
    unfold operationsFrom methodsFrom operationsIn
    cases Signature.parse config text with
    | error error => exact ih index
    | ok signature =>
      dsimp only
      rw [List.flatten_cons, ih]

/-- The operations of a method text have its name and its types, and the number of the method. -/
theorem operationsIn_declares {member : String × String}
    (inside : operation ∈ operationsIn config owning index member) :
    (∃ signature, Signature.parse config member.2 = .ok signature ∧
      Declares member.1 signature operation) ∧ operation.index = index := by
  unfold operationsIn at inside
  split at inside
  next => exact absurd inside List.not_mem_nil
  next signature parsed =>
    obtain ⟨markers, kind, _, made⟩ := operationsOf_made inside
    unfold operationOf at made
    by_cases receives : ((kind != .execute) != signature.hasReceiver) = true
    · simp only [receives, ↓reduceIte, reduceCtorEq] at made
    · simp only [receives, Bool.false_eq_true, ↓reduceIte, Except.ok.injEq] at made
      rw [← made]
      refine ⟨⟨signature, parsed, rfl, rfl, ?_⟩, rfl⟩
      unfold declaredTypes Operation.targetCount Operation.isWrite
      cases kind.isWrite <;> simp [parameterOf]

/-- The operations at a position are those of the method text there. -/
theorem methodsFrom_declares (there : IsAt (methodsFrom config owning index members) position
    operation) : ∃ member signature, members[position]? = some member ∧
      Signature.parse config member.2 = .ok signature ∧
        Declares member.1 signature operation := by
  induction members generalizing index position with
  | nil =>
    obtain ⟨found, none, _⟩ := there
    cases none
  | cons member members ih =>
    cases position with
    | zero =>
      obtain ⟨⟨signature, parsed, declares⟩, _⟩ := operationsIn_declares (isAt_zero.mp there)
      exact ⟨member, signature, rfl, parsed, declares⟩
    | succ position => exact ih (isAt_succ.mp there)

/-- Methods are counted from the first number on. -/
theorem le_index (there : IsAt (methodsFrom config owning index members) position operation) :
    index ≤ operation.index := by
  induction members generalizing index position with
  | nil =>
    obtain ⟨found, none, _⟩ := there
    cases none
  | cons member members ih =>
    cases position with
    | zero => exact (operationsIn_declares (isAt_zero.mp there)).2.ge
    | succ position =>
      have later := ih (isAt_succ.mp there)
      split at later
      next => exact later
      next => exact Nat.le_of_succ_le later

/-- Behind a method that yields operations the numbers are larger. -/
theorem index_lt {member : String × String} (first : Operation)
    (inside : first ∈ operationsIn config owning index member)
    (later : IsAt (methodsFrom config owning index (member :: members)) (position + 1) operation) :
    first.index < operation.index := by
  have behind := le_index (isAt_succ.mp later)
  have some : (operationsIn config owning index member).isEmpty = false := by
    cases given : operationsIn config owning index member with
    | nil =>
      rw [given] at inside
      exact absurd inside List.not_mem_nil
    | cons => rfl
  rw [some, if_neg Bool.false_ne_true] at behind
  rw [(operationsIn_declares inside).2]
  exact behind

/-- Operations have one number exactly when one method text declares them. -/
theorem index_eq_iff {left right : Nat} {first second : Operation}
    (firstAt : IsAt (methodsFrom config owning index members) left first)
    (secondAt : IsAt (methodsFrom config owning index members) right second) :
    first.index = second.index ↔ left = right := by
  induction members generalizing index left right with
  | nil =>
    obtain ⟨found, none, _⟩ := firstAt
    cases none
  | cons member members ih =>
    cases left with
    | zero =>
      have firstIn := isAt_zero.mp firstAt
      cases right with
      | zero =>
        have numbers := (operationsIn_declares (isAt_zero.mp secondAt)).2
        exact iff_of_true ((operationsIn_declares firstIn).2.trans numbers.symm) rfl
      | succ right =>
        exact iff_of_false (index_lt first firstIn secondAt).ne (Nat.succ_ne_zero right).symm
    | succ left =>
      cases right with
      | zero =>
        have smaller := index_lt second (isAt_zero.mp secondAt) firstAt
        exact iff_of_false smaller.ne' (Nat.succ_ne_zero left)
      | succ right =>
        rw [ih (isAt_succ.mp firstAt) (isAt_succ.mp secondAt), Nat.succ_inj]

end Methods

section Listing

/-- A list of overloads with the method of one more operation, unless it is listed. -/
def addOverload (found : List (Nat × List String)) (other : Operation) :
    List (Nat × List String) :=
  if found.any (·.1 == other.index) then found
  else found ++ [(other.index, declaredTypes other)]

/-- The methods of some operations, each listed once with its types. -/
structure Lists (operations : List Operation) (found : List (Nat × List String)) : Prop where
  /-- No method is listed twice. -/
  distinct : (found.map (·.1)).Nodup
  /-- What is listed is the method of an operation. -/
  made : ∀ listed ∈ found, ∃ other ∈ operations, listed = (other.index, declaredTypes other)
  /-- The method of each operation is listed. -/
  complete : ∀ other ∈ operations, other.index ∈ found.map (·.1)

variable {operations more : List Operation} {found : List (Nat × List String)}

/-- With the method of one more operation a list has the methods of the operations with it. -/
theorem Lists.add (lists : Lists operations found) (other : Operation) :
    Lists (operations ++ [other]) (addOverload found other) := by
  have made : ∀ listed ∈ found, ∃ known ∈ operations ++ [other],
      listed = (known.index, declaredTypes known) := by
    intro listed member
    obtain ⟨known, among, same⟩ := lists.made listed member
    exact ⟨known, List.mem_append_left _ among, same⟩
  unfold addOverload
  split
  next known =>
    obtain ⟨listed, member, same⟩ := List.any_eq_true.mp known
    refine ⟨lists.distinct, made, ?_⟩
    intro operation among
    rcases List.mem_append.mp among with before | here
    · exact lists.complete operation before
    · rw [List.mem_singleton.mp here, ← beq_iff_eq.mp same]
      exact List.mem_map_of_mem member
  next unknown =>
    have absent : other.index ∉ found.map (·.1) := by
      intro member
      obtain ⟨listed, among, same⟩ := List.mem_map.mp member
      exact unknown (List.any_eq_true.mpr ⟨listed, among, beq_iff_eq.mpr same⟩)
    refine ⟨?_, ?_, ?_⟩
    · rw [List.map_append, List.map_singleton, List.nodup_append_comm, List.singleton_append,
        List.nodup_cons]
      exact ⟨absent, lists.distinct⟩
    · intro listed member
      rcases List.mem_append.mp member with before | here
      · exact made listed before
      · refine ⟨other, List.mem_append_right _ List.mem_cons_self, List.mem_singleton.mp here⟩
    · intro operation among
      rw [List.map_append, List.mem_append]
      rcases List.mem_append.mp among with before | here
      · exact Or.inl (lists.complete operation before)
      · rw [List.mem_singleton.mp here]
        exact Or.inr List.mem_cons_self

/-- The methods of operations are listed one after another. -/
theorem Lists.foldl (lists : Lists operations found) :
    Lists (operations ++ more) (more.foldl addOverload found) := by
  induction more generalizing operations found with
  | nil =>
    rw [List.append_nil]
    exact lists
  | cons other more ih =>
    rw [List.append_cons, List.foldl_cons]
    exact ih (lists.add other)

/-- Whether two operations belong to methods of one name of one type. -/
def SharesName (first second : Operation) : Prop :=
  first.declaringType = second.declaringType ∧ first.method = second.method

/-- The overloads of an operation are the methods that share its name. -/
theorem overloads_lists (operations : List Operation) (operation : Operation) :
    Lists (operations.filter fun other => other.declaringType == operation.declaringType &&
      other.method == operation.method) (overloads operations operation) := by
  have start : Lists [] [] := by
    refine ⟨List.nodup_nil, ?_, ?_⟩ <;> exact fun _ member => absurd member List.not_mem_nil
  exact start.foldl

/-- An operation is among those that share its name with another. -/
theorem mem_sharing {first second : Operation} :
    first ∈ operations.filter (fun other => other.declaringType == second.declaringType &&
      other.method == second.method) ↔ first ∈ operations ∧ SharesName first second := by
  rw [List.mem_filter, Bool.and_eq_true, beq_iff_eq, beq_iff_eq, SharesName]

end Listing

section Keys

/-- What tells the handler of an overload from those of others: nothing for a single method, the
number of its parameters, or their types. -/
def keySuffix (overloads : List (Nat × List String)) (types : List String) : String :=
  if overloads.length < 2 then ""
  else if (overloads.filter (·.2.length == types.length)).length == 1 then
    "/" ++ toString types.length
  else "(" ++ (", ".intercalate types ++ ")")

/-- The key of the handler of an operation is the name of its method with what tells it apart. -/
theorem handlerKey_eq (operations : List Operation) (operation : Operation) :
    handlerKey operations operation = operation.declaringType ++ "::" ++ operation.method ++
      keySuffix (overloads operations operation) (declaredTypes operation) := by
  unfold handlerKey keySuffix
  dsimp only
  split
  · rw [String.append_empty]
  · split
    · simp only [String.append_assoc]
    · simp only [String.append_assoc]

/-- Where two texts have fronts of one class of characters and backs that begin with none of it, the
fronts are the same and the backs are. -/
theorem append_inj_of_class {class_ : Char → Bool} {front back other rest : List Char}
    (frontIn : ∀ c ∈ front, class_ c = true) (otherIn : ∀ c ∈ other, class_ c = true)
    (backOut : back.head?.any class_ = false) (restOut : rest.head?.any class_ = false)
    (same : front ++ back = other ++ rest) : front = other ∧ back = rest := by
  have taken {front back : List Char} (frontIn : ∀ c ∈ front, class_ c = true)
      (backOut : back.head?.any class_ = false) : (front ++ back).takeWhile class_ = front := by
    rw [List.takeWhile_append_of_pos frontIn]
    cases back with
    | nil => rw [List.takeWhile_nil, List.append_nil]
    | cons c back =>
      rw [List.takeWhile_cons_of_neg (by simpa using backOut), List.append_nil]
  have equal : front = other := by rw [← taken frontIn backOut, same, taken otherIn restOut]
  subst equal
  exact ⟨rfl, List.append_cancel_left same⟩

/-- The characters of words. -/
def isWordPart (c : Char) : Bool := isIdentifierPart c || c == '#'

/-- A word has only such characters. -/
theorem isWordPart_of_mem {word : String} (isWord : IsWord word) :
    ∀ c ∈ word.toList, isWordPart c = true := by
  intro c member
  unfold isWordPart
  rcases isWord_iff.mp isWord with plain | ⟨rest, rfl, plain, _⟩
  · rw [plain.parts member, Bool.true_or]
  · rw [String.toList_append] at member
    rcases List.mem_append.mp member with mark | behind
    · exact List.all_eq_true.mp
        (by decide : "r#".toList.all (fun c => isIdentifierPart c || c == '#') = true) c mark
    · rw [plain.parts behind, Bool.true_or]

variable {overloads : List (Nat × List String)}

/-- What is behind the name of a method begins with no character of a word. -/
theorem keySuffix_head (types : List String) :
    (keySuffix overloads types).toList.head?.any isWordPart = false := by
  unfold keySuffix
  split
  · rfl
  · split
    · rw [String.toList_append]
      rfl
    · rw [String.toList_append]
      rfl

/-- Keys of methods of plainly named types tell types, methods and what is behind them. -/
theorem key_inj {declaring other method name back rest : String}
    (declaringPlain : IsPlainWord declaring) (otherPlain : IsPlainWord other)
    (methodWord : IsWord method) (nameWord : IsWord name)
    (backOut : back.toList.head?.any isWordPart = false)
    (restOut : rest.toList.head?.any isWordPart = false)
    (same : declaring ++ "::" ++ method ++ back = other ++ "::" ++ name ++ rest) :
    declaring = other ∧ method = name ∧ back = rest := by
  have chars := congrArg String.toList same
  simp only [String.toList_append, List.append_assoc] at chars
  have free {word : String} (plain : IsPlainWord word) : ∀ c ∈ word.toList, (c != ':') = true := by
    intro c member
    refine bne_iff_ne.mpr ?_
    rintro rfl
    exact plain.colon_notMem member
  obtain ⟨types, behind⟩ :=
    append_inj_of_class (free declaringPlain) (free otherPlain) rfl rfl chars
  obtain ⟨methods, backs⟩ := append_inj_of_class (isWordPart_of_mem methodWord)
    (isWordPart_of_mem nameWord) backOut restOut (List.append_cancel_left behind)
  exact ⟨String.toList_inj.mp types, String.toList_inj.mp methods, String.toList_inj.mp backs⟩

/-- A list with a single item has no other. -/
theorem eq_of_length_one {α : Type} {list : List α} {first second : α} (single : list.length = 1)
    (firstIn : first ∈ list) (secondIn : second ∈ list) : first = second := by
  obtain ⟨only, rfl⟩ := List.length_eq_one_iff.mp single
  rw [List.mem_singleton.mp firstIn, List.mem_singleton.mp secondIn]

/-- Overloads with different types are told apart. -/
theorem keySuffix_inj {first second : Nat × List String} (firstIn : first ∈ overloads)
    (secondIn : second ∈ overloads)
    (items : ∀ listed ∈ overloads, ∀ type ∈ listed.2, IsItem type.toList)
    (same : keySuffix overloads first.2 = keySuffix overloads second.2) : first.2 = second.2 := by
  have slash (number : Nat) (types : String) : "/" ++ toString number ≠ "(" ++ types := by
    intro equal
    rw [← String.toList_inj, String.toList_append, String.toList_append] at equal
    exact absurd (List.cons.inj equal).1 (by decide)
  unfold keySuffix at same
  split at same
  next few =>
    have single : overloads.length = 1 := by
      have := List.length_pos_of_mem firstIn
      omega
    rw [eq_of_length_one single firstIn secondIn]
  next =>
    split at same <;> split at same
    next firstOne _ =>
      have numbers : toString first.2.length = toString second.2.length :=
        (String.append_right_inj "/").mp same
      have arity : first.2.length = second.2.length := Nat.repr_inj.mp numbers
      have firstThere : first ∈ overloads.filter (·.2.length == first.2.length) :=
        List.mem_filter.mpr ⟨firstIn, beq_self_eq_true _⟩
      have secondThere : second ∈ overloads.filter (·.2.length == first.2.length) :=
        List.mem_filter.mpr ⟨secondIn, beq_iff_eq.mpr arity.symm⟩
      rw [eq_of_length_one (beq_iff_eq.mp firstOne) firstThere secondThere]
    next => exact absurd same (slash _ _)
    next => exact absurd same.symm (slash _ _)
    next =>
      have joined := (String.append_left_inj ")").mp ((String.append_right_inj "(").mp same)
      exact join_inj (items first firstIn) (items second secondIn) joined

end Keys

section Counted

variable {config : Config} {owning : String} {members : List (String × String)} {index : Nat}
  {position left right : Nat} {first second operation : Operation}

/-- The operations of one method share its name and its types. -/
theorem alike_of_isAt (firstAt : IsAt (methodsFrom config owning index members) position first)
    (secondAt : IsAt (methodsFrom config owning index members) position second) :
    SharesName first second ∧ declaredTypes first = declaredTypes second := by
  obtain ⟨member, signature, there, parsed, firstDeclares⟩ := methodsFrom_declares firstAt
  obtain ⟨other, again, also, parsedAlso, secondDeclares⟩ := methodsFrom_declares secondAt
  obtain rfl := Option.some.inj (there.symm.trans also)
  obtain rfl := Except.ok.inj (parsed.symm.trans parsedAlso)
  exact ⟨⟨firstDeclares.declaringType.trans secondDeclares.declaringType.symm,
    firstDeclares.method.trans secondDeclares.method.symm⟩,
    firstDeclares.types.trans secondDeclares.types.symm⟩

/-- What is in one of some lists is at a position of them. -/
theorem isAt_of_mem {methods : List (List Operation)} (member : operation ∈ methods.flatten) :
    ∃ position, IsAt methods position operation := by
  obtain ⟨found, among, inside⟩ := List.mem_flatten.mp member
  obtain ⟨position, there⟩ := List.mem_iff_getElem?.mp among
  exact ⟨position, found, there, inside⟩

/-- What is at a position of some lists is in one of them. -/
theorem mem_of_isAt {methods : List (List Operation)} (there : IsAt methods position operation) :
    operation ∈ methods.flatten := by
  obtain ⟨found, here, inside⟩ := there
  exact List.mem_flatten.mpr ⟨found, List.mem_of_getElem? here, inside⟩

/-- A method that shares its name with that of another operation is an overload of it. -/
theorem mem_overloads (firstAt : IsAt (methodsFrom config owning index members) left first)
    (shares : SharesName first second) : (first.index, declaredTypes first) ∈
      overloads (methodsFrom config owning index members).flatten second := by
  have lists := overloads_lists (methodsFrom config owning index members).flatten second
  have number := lists.complete first (mem_sharing.mpr ⟨mem_of_isAt firstAt, shares⟩)
  obtain ⟨listed, member, same⟩ := List.mem_map.mp number
  obtain ⟨other, among, rfl⟩ := lists.made listed member
  obtain ⟨place, otherAt⟩ := isAt_of_mem (mem_sharing.mp among).1
  dsimp only at same
  obtain rfl := (index_eq_iff otherAt firstAt).mp same
  rwa [same, (alike_of_isAt otherAt firstAt).2] at member

/-- The types of overloads can be told apart when they are joined. -/
theorem overloads_items (operation : Operation) :
    ∀ listed ∈ overloads (methodsFrom config owning index members).flatten operation,
      ∀ type ∈ listed.2, IsItem type.toList := by
  intro listed member type inside
  obtain ⟨other, among, rfl⟩ := (overloads_lists _ operation).made listed member
  obtain ⟨place, otherAt⟩ := isAt_of_mem (mem_sharing.mp among).1
  obtain ⟨_, signature, _, parsed, declares⟩ := methodsFrom_declares otherAt
  rw [declares.types] at inside
  obtain ⟨parameter, declared, rfl⟩ := List.mem_map.mp inside
  obtain ⟨filled, text, same⟩ := Signature.parse_types parsed parameter declared
  rw [same] at filled ⊢
  exact isItem_normalize filled

/-- A method that shares its name with no other has no overloads but itself. -/
theorem length_overloads_lt
    (there : IsAt (methodsFrom config owning index members) position operation)
    (alone : ∀ {place other}, IsAt (methodsFrom config owning index members) place other →
      SharesName other operation → place = position) :
    (overloads (methodsFrom config owning index members).flatten operation).length < 2 := by
  have lists := overloads_lists (methodsFrom config owning index members).flatten operation
  have numbers : ∀ number ∈ (overloads (methodsFrom config owning index members).flatten
      operation).map (·.1), number = operation.index := by
    refine List.forall_mem_map.mpr fun listed member => ?_
    obtain ⟨other, among, rfl⟩ := lists.made listed member
    obtain ⟨inside, shares⟩ := mem_sharing.mp among
    obtain ⟨place, otherAt⟩ := isAt_of_mem inside
    exact (index_eq_iff otherAt there).mpr (alone otherAt shares)
  have few := List.nodup_iff_count_le_one.mp lists.distinct operation.index
  rw [List.count_eq_length.mpr fun number member => (numbers number member).symm,
    List.length_map] at few
  exact Nat.lt_succ_of_le few

/-- Among the operations of method texts of plainly named types, keys of handlers tell apart what
does not share a name or declares other types. -/
theorem handlerKey_eq_iff (plain : ∀ member ∈ members, IsPlainWord member.1)
    (firstAt : IsAt (methodsFrom config owning index members) left first)
    (secondAt : IsAt (methodsFrom config owning index members) right second) :
    handlerKey (methodsFrom config owning index members).flatten first =
        handlerKey (methodsFrom config owning index members).flatten second ↔
      SharesName first second ∧ declaredTypes first = declaredTypes second := by
  have group (shares : SharesName first second) :
      overloads (methodsFrom config owning index members).flatten first =
        overloads (methodsFrom config owning index members).flatten second := by
    unfold overloads
    rw [shares.1, shares.2]
  have spelled {position : Nat} {operation : Operation}
      (there : IsAt (methodsFrom config owning index members) position operation) :
      IsPlainWord operation.declaringType ∧ IsWord operation.method := by
    obtain ⟨member, signature, listed, parsed, declares⟩ := methodsFrom_declares there
    rw [declares.declaringType, declares.method]
    exact ⟨plain member (List.mem_of_getElem? listed), (Signature.parse_words parsed).1⟩
  rw [handlerKey_eq, handlerKey_eq]
  constructor
  · intro same
    obtain ⟨types, methods, suffixes⟩ := key_inj (spelled firstAt).1 (spelled secondAt).1
      (spelled firstAt).2 (spelled secondAt).2 (keySuffix_head _) (keySuffix_head _) same
    have shares : SharesName first second := ⟨types, methods⟩
    rw [group shares] at suffixes
    exact ⟨shares, keySuffix_inj (mem_overloads firstAt shares)
      (mem_overloads secondAt ⟨rfl, rfl⟩) (overloads_items second) suffixes⟩
  · rintro ⟨shares, types⟩
    rw [group shares, types, shares.1, shares.2]

end Counted

section Separation

/-- An operation under the key of its handler among others. -/
def keyed (operations : List Operation) (operation : Operation) : Operation :=
  { operation with handler := handlerKey operations operation }

/-- The operations of each method text of a base chain, under the keys of their handlers. -/
def byMethod (config : Config) (chain : Chain) : List (List Operation) :=
  match chain.members with
  | [] => []
  | owner :: _ =>
    let methods := methodsFrom config owner.name 0 (memberTexts chain.members)
    methods.map (·.map (keyed methods.flatten))

/-- How the keys of handlers tell methods apart, given the operations of each method text. -/
structure Separates (config : Config) (chain : Chain) (methods : List (List Operation)) : Prop where
  /-- The operations of the chain are those of its method texts in order. -/
  listed : (operations config chain).result = methods.flatten
  /-- The operations of a method text have its name and its types. -/
  declared : ∀ {position operation}, IsAt methods position operation →
    ∃ member signature, (memberTexts chain.members)[position]? = some member ∧
      Signature.parse config member.2 = .ok signature ∧ Declares member.1 signature operation
  /-- Two operations have one key exactly when their methods share a name and are one method or
  declare the same types. -/
  keys : ∀ {left right first second}, IsAt methods left first → IsAt methods right second →
    (first.handler = second.handler ↔
      SharesName first second ∧ (left = right ∨ declaredTypes first = declaredTypes second))
  /-- The operations of one method have one key. -/
  shared : ∀ {position first second}, IsAt methods position first → IsAt methods position second →
    first.handler = second.handler
  /-- A method that shares its name with no other one goes by its name. -/
  sole : ∀ {position operation}, IsAt methods position operation →
    (∀ {place other}, IsAt methods place other → SharesName other operation → place = position) →
      operation.handler = operation.declaringType ++ "::" ++ operation.method

/-- What is at a position under the keys of handlers is there without them. -/
theorem isAt_map {methods : List (List Operation)} {change : Operation → Operation}
    {position : Nat} {operation : Operation} :
    IsAt (methods.map (·.map change)) position operation ↔
      ∃ original, IsAt methods position original ∧ change original = operation := by
  simp only [IsAt, List.getElem?_map, Option.map_eq_some_iff]
  constructor
  · rintro ⟨_, ⟨found, there, rfl⟩, inside⟩
    obtain ⟨original, member, same⟩ := List.mem_map.mp inside
    exact ⟨original, ⟨found, there, member⟩, same⟩
  · rintro ⟨original, ⟨found, there, member⟩, same⟩
    exact ⟨_, ⟨found, there, rfl⟩, List.mem_map.mpr ⟨original, member, same⟩⟩

/-- In a base chain of plainly named types, two operations have one key exactly when they belong to
methods of one name of one type and these are one method or declare the same types. -/
theorem handlers_separate (config : Config) (chain : Chain)
    (plain : ∀ member ∈ chain.members, IsPlainWord member.name) :
    Separates config chain (byMethod config chain) := by
  obtain ⟨surfaces, unresolved⟩ := chain
  cases surfaces with
  | nil =>
    have nothing {position : Nat} {operation : Operation} : ¬ IsAt [] position operation := by
      rintro ⟨found, there, _⟩
      cases there
    refine ⟨rfl, ?_, ?_, ?_, ?_⟩ <;> intros <;> exact absurd (by assumption) nothing
  | cons owner rest =>
    let members := memberTexts (owner :: rest)
    let methods := methodsFrom config owner.name 0 members
    have named : ∀ member ∈ members, IsPlainWord member.1 := by
      intro member listed
      obtain ⟨surface, among, declared⟩ := List.mem_flatMap.mp listed
      obtain ⟨text, _, rfl⟩ := List.mem_map.mp declared
      exact plain surface among
    change Separates config _ (methods.map (·.map (keyed methods.flatten)))
    constructor
    case listed =>
      rw [operations]
      dsimp only
      rw [operationsFrom_flatten, ← List.map_flatten]
      rfl
    case declared =>
      intro position operation there
      obtain ⟨original, here, rfl⟩ := isAt_map.mp there
      obtain ⟨member, signature, listed, parsed, declares⟩ := methodsFrom_declares here
      exact ⟨member, signature, listed, parsed, declares.1, declares.2, declares.3⟩
    case keys =>
      intro left right first second firstAt secondAt
      obtain ⟨first, firstHere, rfl⟩ := isAt_map.mp firstAt
      obtain ⟨second, secondHere, rfl⟩ := isAt_map.mp secondAt
      refine (handlerKey_eq_iff named firstHere secondHere).trans (and_congr_right fun _ => ?_)
      constructor
      · exact Or.inr
      · rintro (rfl | types)
        · exact (alike_of_isAt firstHere secondHere).2
        · exact types
    case shared =>
      intro position first second firstAt secondAt
      obtain ⟨first, firstHere, rfl⟩ := isAt_map.mp firstAt
      obtain ⟨second, secondHere, rfl⟩ := isAt_map.mp secondAt
      exact (handlerKey_eq_iff named firstHere secondHere).mpr (alike_of_isAt firstHere secondHere)
    case sole =>
      intro position operation there alone
      obtain ⟨original, here, rfl⟩ := isAt_map.mp there
      have few := length_overloads_lt here fun otherAt shares =>
        alone (isAt_map.mpr ⟨_, otherAt, rfl⟩) shares
      change handlerKey methods.flatten original = _
      rw [handlerKey_eq, keySuffix, if_pos few, String.append_empty]
      rfl

/-- A type that stores its instances by one method and fetches them by several. -/
def overloadedPerson : Surface where
  name := "Person"
  methods := [
    "#[factory(insert, update)] fn store(&mut self)",
    "#[factory(fetch)] fn fetch(&mut self)",
    "#[factory(fetch)] fn fetch(&mut self, id: i64)",
    "#[factory(fetch)] fn fetch(&mut self, name: String)"]

/-- Both kinds of storing have one key; two ways of fetching are told apart by their types, and the
third by its number of parameters. -/
theorem overloadedPerson_separates : IsPlainWord "Person" ∧
    (operations {} ⟨[overloadedPerson], none⟩).result.map (·.handler) =
      ["Person::store", "Person::store", "Person::fetch/0", "Person::fetch(i64)",
        "Person::fetch(String)"] ∧
      Separates {} ⟨[overloadedPerson], none⟩ (byMethod {} ⟨[overloadedPerson], none⟩) := by
  have plain : IsPlainWord "Person" := by decide
  refine ⟨plain, by decide +kernel, handlers_separate {} _ ?_⟩
  exact fun member listed => List.mem_singleton.mp listed ▸ plain

end Separation

end DomainFactory.Extraction
