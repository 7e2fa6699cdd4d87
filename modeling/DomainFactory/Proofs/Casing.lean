import DomainFactory.Proofs.Letters

/-!
# Names in snake case

Snake case is the words of a name in lower case, parted by underscores: an underscore parts words,
and so does a capital behind a small letter or a digit. So two names have the same snake case
exactly when they have the same words up to case. A name in camel case parts its words by capitals
alone, and can be told from its snake case.
-/
namespace DomainFactory.Text

/-- The words of a text, given whether a capital starts a new one here: underscores part words, and
a capital behind a small letter or a digit starts one. -/
def wordsFrom (endsWord : Bool) : List Char → List (List Char)
  | [] => [[]]
  | c :: rest =>
    if c = '_' then [] :: wordsFrom false rest
    else if endsWord && isUppercase c then [] :: (wordsFrom false rest).modifyHead (c :: ·)
    else
      (wordsFrom (!isUppercase c && (isLowercase c || isDigit c)) rest).modifyHead (c :: ·)

/-- The lower-case form of a capital; any other character as it is. -/
def lowered (c : Char) : List Char := if isUppercase c then toLowercase c else [c]

/-- The words of a text in lower case. -/
def loweredFrom (endsWord : Bool) (text : List Char) : List (List Char) :=
  (wordsFrom endsWord text).map (·.flatMap lowered)

/-- The words of a name in lower case. -/
def loweredWords (name : String) : List (List Char) := loweredFrom false name.toList

/-- Whether a text is in camel case, given whether a capital may stand here: capitals are ASCII
letters that stand behind small letters and digits, and there is no underscore. -/
def isCamelFrom (endsWord : Bool) : List Char → Bool
  | [] => true
  | c :: rest =>
    if isUppercase c then endsWord && c.toNat < 128 && isCamelFrom false rest
    else c != '_' && isCamelFrom (isLowercase c || isDigit c) rest

/-- Whether a name is in camel case, with a capital in front. -/
def isCamelCase (name : String) : Bool :=
  (name.toList.head?).all isUppercase && isCamelFrom true name.toList

/-- The capital of a small ASCII letter. -/
def capital (c : Char) : Char := Char.ofNat (c.toNat - 32)

/-- The camel case of a text in snake case, given whether a word starts here. -/
def camelFrom (starts : Bool) : List Char → List Char
  | [] => []
  | c :: rest =>
    if c = '_' then camelFrom true rest
    else (if starts then capital c else c) :: camelFrom false rest

/-- A text has a first word. -/
theorem wordsFrom_ne_nil (endsWord : Bool) (text : List Char) : wordsFrom endsWord text ≠ [] := by
  induction text generalizing endsWord with
  | nil => exact List.cons_ne_nil _ _
  | cons c rest ih =>
    unfold wordsFrom
    split
    · exact List.cons_ne_nil _ _
    · split
      · exact List.cons_ne_nil _ _
      · exact mt List.modifyHead_eq_nil_iff.mp (ih _)

/-- What is put in front of the first word is put in front of all. -/
theorem intercalate_modifyHead (parting front : List Char) {words : List (List Char)}
    (some : words ≠ []) : parting.intercalate (words.modifyHead (front ++ ·)) =
      front ++ parting.intercalate words := by
  cases words with
  | nil => exact absurd rfl some
  | cons word words =>
    cases words with
    | nil => simp only [List.modifyHead_cons, List.intercalate_singleton]
    | cons next words =>
      simp only [List.modifyHead_cons, List.intercalate_cons_cons, List.append_assoc]

/-- The words of a text in lower case, by its first character. -/
theorem loweredFrom_cons (endsWord : Bool) (c : Char) (rest : List Char) :
    loweredFrom endsWord (c :: rest) =
      if c = '_' then [] :: loweredFrom false rest
      else if endsWord && isUppercase c then
        [] :: (loweredFrom false rest).modifyHead (lowered c ++ ·)
      else (loweredFrom (!isUppercase c && (isLowercase c || isDigit c)) rest).modifyHead
        (lowered c ++ ·) := by
  have joined (words : List (List Char)) :
      (words.modifyHead (c :: ·)).map (·.flatMap lowered) =
        (words.map (·.flatMap lowered)).modifyHead (lowered c ++ ·) := by
    cases words with
    | nil => rfl
    | cons word words => simp only [List.modifyHead_cons, List.map_cons, List.flatMap_cons]
  unfold loweredFrom
  rw [wordsFrom]
  split
  · rfl
  · split
    · rw [List.map_cons, joined, List.flatMap_nil]
    · exact joined _

/-- Snake case is the words in lower case, parted by underscores. -/
theorem snakeFrom_eq (endsWord : Bool) (text : List Char) :
    snakeFrom endsWord text = ['_'].intercalate (loweredFrom endsWord text) := by
  induction text generalizing endsWord with
  | nil => rfl
  | cons c rest ih =>
    have some (endsWord : Bool) : loweredFrom endsWord rest ≠ [] :=
      mt List.map_eq_nil_iff.mp (wordsFrom_ne_nil endsWord rest)
    have parted {words : List (List Char)} (some : words ≠ []) :
        ['_'].intercalate ([] :: words) = '_' :: ['_'].intercalate words := by
      rw [List.intercalate_cons_of_ne_nil some, List.nil_append, List.singleton_append]
    rw [loweredFrom_cons, snakeFrom]
    by_cases underscore : c = '_'
    · rw [if_pos underscore, parted (some false), ← ih, underscore]
      rfl
    · rw [if_neg underscore]
      cases large : isUppercase c with
      | true =>
        have front : lowered c = toLowercase c := by rw [lowered, large, if_pos rfl]
        cases endsWord with
        | true =>
          have more : (loweredFrom false rest).modifyHead (lowered c ++ ·) ≠ [] :=
            mt List.modifyHead_eq_nil_iff.mp (some false)
          simp only [Bool.and_self, if_true]
          rw [parted more, intercalate_modifyHead _ _ (some false), ← ih, front]
          rfl
        | false =>
          simp only [Bool.false_and, Bool.false_eq_true, if_false, if_true, Bool.not_true]
          rw [intercalate_modifyHead _ _ (some false), ← ih, front]
          rfl
      | false =>
        have front : lowered c = [c] := by rw [lowered, large, if_neg Bool.false_ne_true]
        simp only [Bool.and_false, Bool.false_eq_true, if_false, Bool.not_false, Bool.true_and]
        rw [intercalate_modifyHead _ _ (some _), ← ih, front]
        rfl

/-- The lower-case form of a capital has no underscore. -/
theorem toLowercase_no_underscore {c : Char} (large : isUppercase c = true) :
    '_' ∉ toLowercase c := by
  have forms : lowercaseFormRuns.all (fun run => 95 < run.2.2.2) = true := by decide +kernel
  unfold toLowercase
  split
  next => decide
  next =>
    split
    next first count step form found =>
      have above : 95 < form := by
        simpa only [decide_eq_true_eq] using
          List.all_eq_true.mp forms _ (List.mem_of_find?_eq_some found)
      have code (n : Nat) : (Char.ofNat n).toNat = n ∨ (Char.ofNat n).toNat = 0 := by
        by_cases valid : n.isValidChar
        · rw [Char.ofNat, dif_pos valid]
          exact Or.inl rfl
        · rw [Char.ofNat, dif_neg valid]
          exact Or.inr rfl
      rw [List.mem_singleton]
      intro same
      have given := code (form + (c.toNat - first))
      rw [← same] at given
      change 95 = _ ∨ 95 = 0 at given
      omega
    next =>
      rw [List.mem_singleton]
      rintro rfl
      exact absurd large (by decide)

/-- Words in lower case have no underscores. -/
theorem loweredFrom_no_underscore (endsWord : Bool) (text : List Char) :
    ∀ word ∈ loweredFrom endsWord text, '_' ∉ word := by
  induction text generalizing endsWord with
  | nil =>
    intro word member
    rw [List.mem_singleton.mp member]
    exact List.not_mem_nil
  | cons c rest ih =>
    have joined (endsWord : Bool) (other : c ≠ '_') :
        ∀ word ∈ (loweredFrom endsWord rest).modifyHead (lowered c ++ ·), '_' ∉ word := by
      have front : '_' ∉ lowered c := by
        unfold lowered
        split
        next large => exact toLowercase_no_underscore large
        next => exact mt List.mem_singleton.mp (Ne.symm other)
      intro word member
      cases words : loweredFrom endsWord rest with
      | nil =>
        rw [words] at member
        cases member
      | cons first more =>
        have free := ih endsWord
        rw [words] at free member
        rw [List.modifyHead_cons] at member
        rcases List.mem_cons.mp member with rfl | later
        · exact fun among => (List.mem_append.mp among).elim front (free first List.mem_cons_self)
        · exact free word (List.mem_cons_of_mem _ later)
    rw [loweredFrom_cons]
    split
    next =>
      exact List.forall_mem_cons.mpr ⟨List.not_mem_nil, ih false⟩
    next other =>
      split
      · exact List.forall_mem_cons.mpr ⟨List.not_mem_nil, joined false other⟩
      · exact joined _ other

/-- Two names have the same snake case when they have the same words up to case. -/
theorem snakeCase_eq_iff (left right : String) :
    snakeCase left = snakeCase right ↔ loweredWords left = loweredWords right := by
  have back (name : String) : (snakeCase name).toList.splitOn '_' = loweredWords name := by
    rw [snakeCase, String.toList_ofList, snakeFrom_eq]
    exact List.splitOn_intercalate '_' (loweredFrom_no_underscore false name.toList)
      (mt List.map_eq_nil_iff.mp (wordsFrom_ne_nil false name.toList))
  constructor
  · intro same
    rw [← back, same, back]
  · intro same
    rw [snakeCase, snakeCase, snakeFrom_eq, snakeFrom_eq]
    exact congrArg (fun words => String.ofList (['_'].intercalate words)) same

/-- Capitals in a row are parts of one word, whatever their case. -/
example : loweredWords "OAuthToken" = loweredWords "OauthToken" := by decide +kernel

/-- The lower-case form of an ASCII capital is a small letter, of which it is the capital. -/
theorem capital_of_lowered {c : Char} (large : isUppercase c = true) (ascii : c.toNat < 128) :
    ∃ small, toLowercase c = [small] ∧ small ≠ '_' ∧ capital small = c := by
  have letters : ∀ code < 128, isUppercase (Char.ofNat code) = true →
      toLowercase (Char.ofNat code) = [Char.ofNat (code + 32)] ∧ Char.ofNat (code + 32) ≠ '_' ∧
        capital (Char.ofNat (code + 32)) = Char.ofNat code := by
    decide +kernel
  have here := letters c.toNat ascii
  rw [Char.ofNat_toNat] at here
  exact ⟨_, here large⟩

/-- A text in camel case comes back from its snake case. -/
theorem camelFrom_snakeFrom {endsWord : Bool} {text : List Char}
    (camel : isCamelFrom endsWord text = true) :
    camelFrom false (snakeFrom endsWord text) = text := by
  induction text generalizing endsWord with
  | nil => rfl
  | cons c rest ih =>
    unfold isCamelFrom at camel
    unfold snakeFrom
    split at camel
    next large =>
      simp only [Bool.and_eq_true, decide_eq_true_eq] at camel
      obtain ⟨⟨rfl, ascii⟩, later⟩ := camel
      obtain ⟨small, lowered, other, back⟩ := capital_of_lowered large ascii
      rw [if_pos large, if_pos rfl, lowered]
      simp only [List.cons_append, List.nil_append, camelFrom, if_true, if_neg other, back,
        ih later]
    next small =>
      simp only [Bool.and_eq_true, bne_iff_ne, ne_eq] at camel
      rw [if_neg small, camelFrom, if_neg camel.1, ih camel.2, if_neg Bool.false_ne_true]

/-- Names in camel case have distinct words, also in lower case. -/
theorem camelCase_injective {left right : String} (here : isCamelCase left = true)
    (there : isCamelCase right = true) (same : loweredWords left = loweredWords right) :
    left = right := by
  have back {name : String} (camel : isCamelCase name = true) :
      camelFrom true (snakeCase name).toList = name.toList := by
    unfold isCamelCase at camel
    rw [snakeCase, String.toList_ofList]
    cases text : name.toList with
    | nil => rfl
    | cons c rest =>
      simp only [text, List.head?_cons, Option.all_some, Bool.and_eq_true] at camel
      obtain ⟨large, whole⟩ := camel
      simp only [isCamelFrom, if_pos large, Bool.and_eq_true, decide_eq_true_eq, true_and] at whole
      obtain ⟨small, lowered, other, capital⟩ := capital_of_lowered large whole.1
      rw [snakeFrom, if_pos large, lowered]
      simp only [Bool.false_eq_true, if_false, List.nil_append, List.cons_append, camelFrom,
        if_neg other, if_true, capital, camelFrom_snakeFrom whole.2]
  rw [← String.toList_inj, ← back here, ← back there, (snakeCase_eq_iff left right).mpr same]

end DomainFactory.Text
