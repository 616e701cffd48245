import CoreUtils.Library.LowerCase
import CoreUtils.Library.PatternReplace
import CoreUtils.Library.Text

/-!
# What diagnostics of Cognito show

`sanitizeCognitoDiagnosticText` of the Playwright toolkit makes seven replacements. No JWT gets
through. A run of four or more digits gets through exactly when a letter or an underscore stands
next to it in what the first six replacements leave, since the last one asks for word boundaries
(`glued_of_contains`, `contains_of_glued`). No email address in the characters of the fifth pattern
gets through; other addresses are the subject of `CognitoAddresses`.
-/

namespace CoreUtils.Toolkit.Cognito

open Pattern

/-- A text. -/
abbrev Text := List Char

/-! ## The replacements -/

/-- A character of a bearer token. -/
def isTokenChar (c : Char) : Bool := c.isAlphanum || c == '.' || c == '_' || c == '-'

/-- A character of base64url. -/
def isBase64UrlChar (c : Char) : Bool := c.isAlphanum || c == '_' || c == '-'

/-- A character before the `@` of an address. -/
def isLocalChar (c : Char) : Bool :=
  c.isAlphanum || c == '.' || c == '_' || c == '%' || c == '+' || c == '-'

/-- A character of a domain. -/
def isDomainChar (c : Char) : Bool := c.isAlphanum || c == '.' || c == '-'

/-- A character inside a number as it is written for people. -/
def isNumberChar (c : Char) : Bool :=
  c.isDigit || Text.isWhiteSpace c || c == '(' || c == ')' || c == '.' || c == '-'

/-- A character that is not a quotation mark. -/
def isUnquoted (c : Char) : Bool := c != '"'

/-- The names of what is secret. -/
def secretNames : List Text :=
  ["authorization", "challengeResponse", "code", "email", "password", "phone", "session",
    "token"].map String.toList

/-- One of these names, in any case. -/
def secretName : Pattern Char Unit := oneOf (secretNames.map caseless)

/-- What is put in for a bearer token. -/
def redactedToken : Text := "Bearer [redacted-token]".toList

/-- `/Bearer\s+[A-Za-z0-9._-]+/gi`. -/
def bearerPattern (_ : Option Char) : Pattern Char Text :=
  (caseless "Bearer".toList).followedBy <| (greedyAtLeast 1 Text.isWhiteSpace).followedBy <|
    (greedyAtLeast 1 isTokenChar).followedBy <| succeed redactedToken

/-- What is put in for a JWT. -/
def redactedJwt : Text := "[redacted-jwt]".toList

/-- `/eyJ[A-Za-z0-9_-]+\.[A-Za-z0-9_-]+\.[A-Za-z0-9_-]+/g`. -/
def jwtPattern (_ : Option Char) : Pattern Char Text :=
  (literal "eyJ".toList).followedBy <| (greedyAtLeast 1 isBase64UrlChar).followedBy <|
    (literal ['.']).followedBy <| (greedyAtLeast 1 isBase64UrlChar).followedBy <|
      (literal ['.']).followedBy <| (greedyAtLeast 1 isBase64UrlChar).followedBy <|
        succeed redactedJwt

/-- The group of the pattern for members: a name in quotation marks with a secret one in it, and the
colon. -/
def memberName : Pattern Char Unit :=
  (literal ['"']).followedBy <| (greedy isUnquoted).followedBy <| secretName.followedBy <|
    (greedy isUnquoted).followedBy <| (literal ['"']).followedBy <|
      (greedy Text.isWhiteSpace).followedBy <| (literal [':']).followedBy <|
        (greedy Text.isWhiteSpace).followedBy <| succeed ()

/-- What is put in for the value of a member. -/
def redactedValue : Text := "\"[redacted]\"".toList

/-- The pattern for members of JSON objects: `memberName` as the group, and a value in quotation
marks. The group is kept. -/
def memberPattern (_ : Option Char) : Pattern Char Text :=
  (taken memberName).andThen fun name ↦ (literal ['"']).followedBy <|
    (greedy isUnquoted).followedBy <| (literal ['"']).followedBy <| succeed (name ++ redactedValue)

/-- What is put in for the value of an assignment. -/
def redactedAssignment : Text := "=[redacted]".toList

/-- `match.replace(/[=].*/, "=[redacted]")`. -/
def redactAssignment (matched : Text) : Text :=
  match matched.dropWhile (· != '=') with
  | [] => matched
  | sign :: value => matched.takeWhile (· != '=') ++
      (redactedAssignment ++ (sign :: value).dropWhile fun c ↦ !isLineTerminator c)

/-- `/\b(?:authorization|...|token)=\S+/gi`. -/
def assignmentPattern (previous : Option Char) : Pattern Char Text :=
  (taken ((boundary previous).followedBy <| secretName.followedBy <| (literal ['=']).followedBy <|
    (greedyAtLeast 1 fun c ↦ !Text.isWhiteSpace c).followedBy <| succeed ())).andThen
    fun matched ↦ succeed (redactAssignment matched)

/-- What is put in for an email address. -/
def redactedEmail : Text := "[redacted-email]".toList

/-- `/[A-Z0-9._%+-]+@[A-Z0-9.-]+\.[A-Z]{2,}/gi`. -/
def emailPattern (_ : Option Char) : Pattern Char Text :=
  (greedyAtLeast 1 isLocalChar).followedBy <| (literal ['@']).followedBy <|
    (greedyAtLeast 1 isDomainChar).followedBy <| (literal ['.']).followedBy <|
      (greedyAtLeast 2 Char.isAlpha).followedBy <| succeed redactedEmail

/-- What is put in for a number. -/
def redactedNumber : Text := "[redacted-number]".toList

/-- `/\+?\d[\d\s().-]{5,}\d/g`. -/
def numberPattern (_ : Option Char) : Pattern Char Text :=
  (atMostOne (· == '+')).followedBy <| (one Char.isDigit).followedBy <|
    (greedyAtLeast 5 isNumberChar).followedBy <| (one Char.isDigit).followedBy <|
      succeed redactedNumber

/-- `/\b\d{4,}\b/g`. -/
def codePattern (previous : Option Char) : Pattern Char Text :=
  (boundary previous).followedBy <| (greedyAtLeast 4 Char.isDigit).andThen fun digits ↦
    (boundary digits.getLast?).followedBy <| succeed redactedNumber

/-- The first six replacements. -/
def redactKnown (text : Text) : Text :=
  let withoutTokens := replaceEvery bearerPattern text
  let withoutJwts := replaceEvery jwtPattern withoutTokens
  let withoutMembers := replaceEvery memberPattern withoutJwts
  let withoutAssignments := replaceEvery assignmentPattern withoutMembers
  let withoutEmails := replaceEvery emailPattern withoutAssignments
  replaceEvery numberPattern withoutEmails

/-- A text without the forms of secrets that are known and without what looks like a code. -/
def sanitizeCognitoDiagnosticText (text : Text) : Text :=
  replaceEvery codePattern (redactKnown text)

/-! ## What may not get through -/

/-- `eyJ` and three parts of base64url with dots between them. -/
def IsJwt (word : Text) : Prop :=
  ∃ header payload signature,
    word = "eyJ".toList ++ (header ++ (['.'] ++ (payload ++ (['.'] ++ signature)))) ∧
    IsRun 1 isBase64UrlChar header ∧ IsRun 1 isBase64UrlChar payload ∧
    IsRun 1 isBase64UrlChar signature

/-- A local part, `@`, and a domain with a dot and an ending of two or more letters, all in the
characters of the pattern. -/
def IsEmail (word : Text) : Prop :=
  ∃ localPart domain ending, word = localPart ++ (['@'] ++ (domain ++ (['.'] ++ ending))) ∧
    IsRun 1 isLocalChar localPart ∧ IsRun 1 isDomainChar domain ∧ IsRun 2 Char.isAlpha ending

/-- Four or more decimal digits. -/
abbrev IsDigitRun : Text → Prop := IsRun 4 Char.isDigit

/-! ## JWTs -/

/-- A match of the pattern for JWTs is one. -/
theorem mem_jwtPattern (previous : Option Char) (s : Text) (way : Text × Text) :
    way ∈ jwtPattern previous s ↔
      way.1 = redactedJwt ∧ ∃ word, IsJwt word ∧ s = word ++ way.2 := by
  simp only [jwtPattern, mem_literal_followedBy, mem_greedyAtLeast_followedBy, mem_succeed]
  constructor
  · rintro ⟨_, rfl, header, _, rfl, hheader, _, rfl, payload, _, rfl, hpayload, _, rfl, signature,
      rest, rfl, hsignature, rfl⟩
    exact ⟨rfl, _, ⟨header, payload, signature, rfl, hheader, hpayload, hsignature⟩, by simp⟩
  · rintro ⟨hreplacement, _, ⟨header, payload, signature, rfl, hheader, hpayload, hsignature⟩, hs⟩
    exact ⟨_, by simpa using hs, header, _, rfl, hheader, _, rfl, payload, _, rfl, hpayload, _, rfl,
      signature, _, rfl, hsignature, Prod.ext hreplacement rfl⟩

/-- A match of the pattern for email addresses is one. -/
theorem mem_emailPattern (previous : Option Char) (s : Text) (way : Text × Text) :
    way ∈ emailPattern previous s ↔
      way.1 = redactedEmail ∧ ∃ word, IsEmail word ∧ s = word ++ way.2 := by
  simp only [emailPattern, mem_literal_followedBy, mem_greedyAtLeast_followedBy, mem_succeed]
  constructor
  · rintro ⟨localPart, _, rfl, hlocal, _, rfl, domain, _, rfl, hdomain, _, rfl, ending, rest, rfl,
      hending, rfl⟩
    exact ⟨rfl, _, ⟨localPart, domain, ending, rfl, hlocal, hdomain, hending⟩, by simp⟩
  · rintro ⟨hreplacement, _, ⟨localPart, domain, ending, rfl, hlocal, hdomain, hending⟩, hs⟩
    exact ⟨localPart, _, by simpa using hs, hlocal, _, rfl, domain, _, rfl, hdomain, _, rfl, ending,
      _, rfl, hending, Prod.ext hreplacement rfl⟩

/-- The characters of a JWT. -/
theorem marked_isJwt : Marked isTokenChar '.' IsJwt where
  all := by
    rintro _ ⟨header, payload, signature, rfl, hheader, hpayload, hsignature⟩ c hc
    have hbase : ∀ c, isBase64UrlChar c = true → isTokenChar c = true := by
      intro c hc
      simp only [isBase64UrlChar, isTokenChar, Bool.or_eq_true] at hc ⊢
      tauto
    have hword : ∀ c ∈ "eyJ".toList ++ ['.'], isTokenChar c = true :=
      List.all_eq_true.mp (show ("eyJ".toList ++ ['.']).all isTokenChar = true from rfl)
    simp only [List.mem_append] at hc hword
    rcases hc with hc | hc | hc | hc | hc | hc
    · exact hword c (.inl hc)
    · exact hbase c (hheader.1 c hc)
    · exact hword c (.inr hc)
    · exact hbase c (hpayload.1 c hc)
    · exact hword c (.inr hc)
    · exact hbase c (hsignature.1 c hc)
  mem := by
    rintro _ ⟨header, payload, signature, rfl, -⟩
    simp

/-- A character of an email address. -/
def isEmailChar (c : Char) : Bool := isLocalChar c || c == '@'

/-- The characters of an email address. -/
theorem marked_isEmail : Marked isEmailChar '@' IsEmail where
  all := by
    rintro _ ⟨localPart, domain, ending, rfl, hlocal, hdomain, hending⟩ c hc
    simp only [List.mem_append, List.mem_singleton] at hc
    rcases hc with hc | rfl | hc | rfl | hc
    · simp [isEmailChar, hlocal.1 c hc]
    · rfl
    · have hc := hdomain.1 c hc
      simp only [isDomainChar, isEmailChar, isLocalChar, Bool.or_eq_true] at hc ⊢
      tauto
    · rfl
    · simp [isEmailChar, isLocalChar, Char.isAlphanum, hending.1 c hc]
  mem := by
    rintro _ ⟨localPart, domain, ending, rfl, -⟩
    simp

/-! ## What the patterns keep -/

/-- A secret name, and what is behind it. -/
theorem mem_secretName {s rest : Text} (h : ((), rest) ∈ secretName s) :
    ∃ name, s = name ++ rest ∧ '=' ∉ name := by
  obtain ⟨pattern, hpattern, hway⟩ := mem_oneOf.mp h
  obtain ⟨word, hword, rfl⟩ := List.mem_map.mp hpattern
  obtain ⟨name, hsplit, hname⟩ := mem_caseless hway
  have hnone : ∀ word ∈ secretNames, '=' ∉ word.map Char.toLower := by decide
  refine ⟨name, hsplit, fun hsign ↦ hnone word hword ?_⟩
  rw [← hname]
  exact List.mem_map.mpr ⟨'=', hsign, rfl⟩

/-- A secret name takes a beginning of the text. -/
theorem splits_secretName : Splits secretName := fun _ _ h ↦
  have ⟨name, hsplit, _⟩ := mem_secretName h
  ⟨name, hsplit⟩

/-- The name of a member takes a beginning of the text. -/
theorem splits_memberName : Splits memberName :=
  (splits_literal _).followedBy <| (splits_greedy _).followedBy <| splits_secretName.followedBy <|
    (splits_greedy _).followedBy <| (splits_literal _).followedBy <|
      (splits_greedy _).followedBy <| (splits_literal _).followedBy <|
        (splits_greedy _).followedBy fun _ _ h ↦ ⟨[], congrArg Prod.snd (mem_succeed.mp h) ▸ rfl⟩

/-- Of a JWT nothing is kept. -/
theorem fences_jwtPattern : Fences id jwtPattern redactedJwt :=
  fences_of_mem_iff marked_isJwt mem_jwtPattern id

/-- Of an email address nothing is kept. -/
theorem fences_emailPattern : Fences id emailPattern redactedEmail :=
  fences_of_mem_iff marked_isEmail mem_emailPattern id

/-- For a member, its name and the quotation marks around its value are kept. -/
theorem fences_memberPattern : Fences id memberPattern "[redacted]".toList := by
  intro previous s way hway
  obtain ⟨name, s₁, hname, hvalue⟩ := mem_andThen.mp hway
  obtain ⟨rfl, -⟩ := mem_taken splits_memberName hname
  simp only [mem_literal_followedBy, mem_greedy_followedBy, mem_succeed] at hvalue
  obtain ⟨_, rfl, value, _, rfl, -, rest, rfl, rfl⟩ := hvalue
  refine ⟨name ++ (['"'] ++ (value ++ ['"'])), by simp, by simp, name ++ ['"'], ['"'], ?_, ?_,
    ⟨name ++ (['"'] ++ value), by simp⟩⟩
  · show name ++ ('"' :: "[redacted]\"".toList) = _
    simp
  · rw [List.map_id, List.map_id]
    exact ⟨value ++ ['"'], by simp⟩

/-- Up to the sign, an assignment is kept. -/
theorem redactAssignment_eq {name value : Text} (hname : '=' ∉ name)
    (hvalue : ∀ c ∈ value, (!Text.isWhiteSpace c) = true) :
    redactAssignment (name ++ ('=' :: value)) = name ++ redactedAssignment := by
  have hunsigned : ∀ c ∈ name, (c != '=') = true := fun c hc ↦
    bne_iff_ne.mpr fun heq ↦ hname (heq ▸ hc)
  have hline : ∀ c ∈ '=' :: value, (!isLineTerminator c) = true := by
    intro c hc
    rcases List.mem_cons.mp hc with rfl | hc
    · rfl
    · have hspace := hvalue c hc
      -- the characters that end a line are white space
      by_contra hends
      simp only [Bool.not_eq_true', Bool.not_eq_false, isLineTerminator, Bool.or_eq_true,
        beq_iff_eq] at hends
      rcases hends with ((rfl | rfl) | hends) | hends
      · exact absurd hspace (by decide)
      · exact absurd hspace (by decide)
      · simp [Text.isWhiteSpace, Text.isWhiteSpaceCode, hends] at hspace
      · simp [Text.isWhiteSpace, Text.isWhiteSpaceCode, hends] at hspace
  have hdrop : (name ++ ('=' :: value)).dropWhile (· != '=') = '=' :: value := by
    rw [List.dropWhile_append_of_pos hunsigned]
    rfl
  have htake : (name ++ ('=' :: value)).takeWhile (· != '=') = name := by
    rw [List.takeWhile_append_of_pos hunsigned]
    exact List.append_nil _
  rw [redactAssignment, hdrop]
  simp only
  rw [htake, List.dropWhile_eq_nil_iff.mpr hline, List.append_nil]

/-- For an assignment, what is up to the sign is kept. -/
theorem fences_assignmentPattern : Fences id assignmentPattern "[redacted]".toList := by
  intro previous s way hway
  obtain ⟨matched, s₁, hmatched, hreplacement⟩ := mem_andThen.mp hway
  obtain rfl := mem_succeed.mp hreplacement
  have hsplits : Splits ((boundary previous).followedBy <| secretName.followedBy <|
      (literal ['=']).followedBy <|
        (greedyAtLeast 1 fun c ↦ !Text.isWhiteSpace c).followedBy <| succeed ()) :=
    Splits.followedBy (fun _ _ h ↦ ⟨[], (mem_boundary.mp h).1.symm⟩) <|
      splits_secretName.followedBy <| (splits_literal _).followedBy <|
        (splits_greedyAtLeast _ _).followedBy fun _ _ h ↦
          ⟨[], congrArg Prod.snd (mem_succeed.mp h) ▸ rfl⟩
  obtain ⟨hsplit, _, hthrough⟩ := mem_taken hsplits hmatched
  obtain ⟨_, s₂, hboundary, hnamed⟩ := mem_followedBy.mp hthrough
  obtain rfl := (mem_boundary.mp hboundary).1
  obtain ⟨_, s₃, hname, hsigned⟩ := mem_followedBy.mp hnamed
  obtain ⟨name, hs, hunsigned⟩ := mem_secretName hname
  simp only [mem_literal_followedBy, mem_greedyAtLeast_followedBy, mem_succeed] at hsigned
  obtain ⟨_, rfl, value, rest, rfl, hvalue, heq⟩ := hsigned
  obtain rfl : s₁ = rest := congrArg Prod.snd heq
  obtain rfl : matched = name ++ ('=' :: value) := by
    refine (List.append_left_inj s₁).mp ?_
    rw [← hsplit, hs]
    simp
  refine ⟨name ++ ('=' :: value), by simp, hsplit, name ++ ['='], [], ?_, ?_, List.nil_suffix⟩
  · rw [redactAssignment_eq hunsigned hvalue.1]
    show name ++ ('=' :: "[redacted]".toList) = _
    simp
  · rw [List.map_id, List.map_id]
    exact ⟨value, by simp⟩

/-- Of a number nothing is kept. -/
theorem fences_numberPattern : Fences id numberPattern redactedNumber := by
  refine fences_of_replacement id fun previous s way hway ↦ ?_
  obtain ⟨plus, s₁, hplus, hdigits⟩ := mem_followedBy.mp hway
  obtain ⟨sign, rfl⟩ := splits_atMostOne _ _ _ hplus
  obtain ⟨first, s₂, hfirst, hothers⟩ := mem_followedBy.mp hdigits
  obtain ⟨inner, s₃, hinner, -, hend⟩ := mem_greedyAtLeast_followedBy.mp hothers
  obtain ⟨last, rest, hlast, hreplacement⟩ := mem_followedBy.mp hend
  obtain rfl := mem_succeed.mp hreplacement
  refine ⟨rfl, sign ++ (first :: (inner ++ [last])), by simp, ?_⟩
  show sign ++ s₁ = _
  rw [(mem_one.mp hfirst).1, hinner, (mem_one.mp hlast).1]
  simp

/-! ## Runs of digits -/

/-- A digit is a character of a word. -/
theorem isWordChar_of_isDigit {c : Char} (h : c.isDigit = true) : isWordChar c = true := by
  simp [isWordChar, Char.isAlphanum, h]

/-- A run of digits begins and ends with one. -/
theorem any_isWordChar_of_isDigitRun {digits : Text} (h : IsDigitRun digits) (rest : Text) :
    (digits ++ rest).head?.any isWordChar = true ∧ digits.getLast?.any isWordChar = true := by
  obtain ⟨hdigits, hlength⟩ := h
  have hne : digits ≠ [] := List.ne_nil_of_length_pos (by omega)
  constructor
  · obtain ⟨c, tail, rfl⟩ := List.exists_cons_of_ne_nil hne
    exact isWordChar_of_isDigit (hdigits c List.mem_cons_self)
  · rw [List.getLast?_eq_some_getLast hne]
    exact isWordChar_of_isDigit (hdigits _ (List.getLast_mem hne))

/-- A match of the last pattern is a run of digits without a character of a word next to it. -/
theorem mem_codePattern {previous : Option Char} {s : Text} {way : Text × Text} :
    way ∈ codePattern previous s ↔ way.1 = redactedNumber ∧
      ∃ digits, IsDigitRun digits ∧ s = digits ++ way.2 ∧ previous.any isWordChar = false ∧
        way.2.head?.any isWordChar = false := by
  constructor
  · intro hway
    obtain ⟨_, s₁, hbegin, hdigits⟩ := mem_followedBy.mp hway
    obtain ⟨hsame, hbefore⟩ := mem_boundary.mp hbegin
    obtain ⟨digits, rest, htaken, hblock⟩ := mem_andThen.mp hdigits
    obtain ⟨hsplit, hrun⟩ := mem_greedyAtLeast.mp htaken
    obtain ⟨_, s₂, hend, hreplacement⟩ := mem_followedBy.mp hblock
    obtain ⟨rfl, hafter⟩ := mem_boundary.mp hend
    obtain rfl := mem_succeed.mp hreplacement
    obtain ⟨hhead, hlast⟩ := any_isWordChar_of_isDigitRun hrun s₂
    rw [← hsame, hsplit, hhead] at hbefore
    rw [hlast] at hafter
    exact ⟨rfl, digits, hrun, hsame ▸ hsplit, Bool.eq_false_iff.mpr hbefore,
      Bool.eq_false_iff.mpr hafter.symm⟩
  · rintro ⟨hreplacement, digits, hrun, rfl, hbefore, hafter⟩
    obtain ⟨hhead, hlast⟩ := any_isWordChar_of_isDigitRun hrun way.2
    refine mem_followedBy.mpr ⟨(), _, mem_boundary.mpr ⟨rfl, ?_⟩, ?_⟩
    · rw [hbefore, hhead]
      exact Bool.false_ne_true
    · refine mem_andThen.mpr ⟨digits, way.2, mem_greedyAtLeast.mpr ⟨rfl, hrun⟩, ?_⟩
      refine mem_followedBy.mpr ⟨(), way.2, mem_boundary.mpr ⟨rfl, ?_⟩, ?_⟩
      · rw [hlast, hafter]
        exact Bool.false_ne_true.symm
      · exact mem_succeed.mpr (Prod.ext hreplacement rfl)

/-- Of a code nothing is kept. -/
theorem fences_codePattern : Fences id codePattern redactedNumber := by
  refine fences_of_replacement id fun previous s way hway ↦ ?_
  obtain ⟨hreplacement, digits, hrun, hsplit, -⟩ := mem_codePattern.mp hway
  exact ⟨hreplacement, digits, List.ne_nil_of_length_pos (by have := hrun.2; omega), hsplit⟩

/-- A letter or an underscore. -/
def isLetterOrUnderscore (c : Char) : Bool := isWordChar c && !c.isDigit

/-- A run of four or more digits with a letter or an underscore right before or after it, in a text
that comes after a character. -/
def GluedAfter (previous : Option Char) (text : Text) : Prop :=
  ∃ before digits after, text = before ++ (digits ++ after) ∧ IsDigitRun digits ∧
    ((before.getLast?.or previous).any isLetterOrUnderscore = true ∨
      after.head?.any isLetterOrUnderscore = true)

/-- A run of four or more digits with a letter or an underscore right before or after it. -/
def Glued (text : Text) : Prop := GluedAfter none text

/-- Such a run behind a beginning of a text is one of the text. -/
theorem GluedAfter.append {previous : Option Char} {front text : Text}
    (h : GluedAfter (front.getLast?.or previous) text) : GluedAfter previous (front ++ text) := by
  obtain ⟨before, digits, after, rfl, hrun, hglued⟩ := h
  refine ⟨front ++ before, digits, after, by simp, hrun, hglued.imp (fun hbefore ↦ ?_) id⟩
  rwa [List.getLast?_append, Option.or_assoc]

/-- Behind a character of a word, digits are kept. -/
theorem prefix_of_replaced {c : Char} (hc : isWordChar c = true) {digits after out : Text}
    (hdigits : ∀ d ∈ digits, d.isDigit = true)
    (h : Replaced codePattern (some c) (digits ++ after) out) : digits <+: out := by
  induction digits generalizing c out with
  | nil => exact List.nil_prefix
  | cons d digits ih =>
      have hd := isWordChar_of_isDigit (hdigits d List.mem_cons_self)
      generalize htext : d :: digits ++ after = text at h
      cases h with
      | nil => exact absurd htext (List.cons_ne_nil _ _)
      | keep hnone hrest =>
          obtain ⟨rfl, rfl⟩ := List.cons.inj htext
          have hlater := ih hd (fun e he ↦ hdigits e (List.mem_cons_of_mem _ he)) hrest
          exact (List.prefix_cons_inj d).mpr hlater
      | found hway hmatched hrest =>
          obtain ⟨-, -, -, -, hbefore, -⟩ := mem_codePattern.mp (List.mem_of_mem_head? hway)
          rw [Option.any_some, hc] at hbefore
          exact absurd hbefore Bool.false_ne_true.symm

/-- A match is not next to a letter or an underscore, and neither are the digits in it. -/
theorem not_glued_of_match {previous : Option Char} {matched rest before digits after : Text}
    (hmatched : ∀ c ∈ matched, c.isDigit = true) (hprevious : previous.any isWordChar = false)
    (hrest : rest.head?.any isWordChar = false) (hrun : IsDigitRun digits)
    (hsplit : matched ++ rest = before ++ (digits ++ after))
    (hshort : before.length < matched.length) :
    ¬((before.getLast?.or previous).any isLetterOrUnderscore = true ∨
      after.head?.any isLetterOrUnderscore = true) := by
  have hword : ∀ {c : Option Char}, c.any isWordChar = false →
      ¬c.any isLetterOrUnderscore = true := by
    intro c hnone hsome
    cases c with
    | none => exact absurd hsome Bool.false_ne_true
    | some c =>
        rw [Option.any_some] at hnone hsome
        simp [isLetterOrUnderscore, hnone] at hsome
  have hdigit : ∀ {c : Char}, c.isDigit = true → ¬isLetterOrUnderscore c = true := by
    intro c hc hsome
    simp [isLetterOrUnderscore, hc] at hsome
  rcases List.append_eq_append_iff.mp hsplit with ⟨tail, rfl, hrest'⟩ | ⟨inner, rfl, hinner⟩
  · rw [List.length_append] at hshort
    omega
  rintro (hbefore | hafter)
  · cases hlast : before.getLast? with
    | none =>
        rw [hlast, Option.none_or] at hbefore
        exact hword hprevious hbefore
    | some c =>
        rw [hlast, Option.some_or, Option.any_some] at hbefore
        exact hdigit (hmatched c (List.mem_append_left _ (List.mem_of_getLast? hlast))) hbefore
  · rcases List.append_eq_append_iff.mp hinner with ⟨tail, rfl, rfl⟩ | ⟨tail, rfl, rfl⟩
    · cases tail with
      | nil => exact hword hrest hafter
      | cons c tail => exact hdigit (hmatched c (by simp)) hafter
    · cases tail with
      | nil => exact hword hrest hafter
      | cons c tail =>
          have hc := isWordChar_of_isDigit (hrun.1 c (by simp))
          exact absurd (hrest.symm.trans hc) Bool.false_ne_true

/-- A run that is glued to a letter or an underscore is not replaced. -/
theorem contains_of_glued {previous : Option Char} {s out : Text}
    (h : Replaced codePattern previous s out) (hglued : GluedAfter previous s) :
    Contains IsDigitRun out := by
  induction h with
  | nil previous =>
      obtain ⟨before, digits, after, heq, hrun, -⟩ := hglued
      obtain ⟨rfl, hempty⟩ := List.append_eq_nil_iff.mp heq.symm
      obtain ⟨rfl, rfl⟩ := List.append_eq_nil_iff.mp hempty
      exact absurd hrun.2 (by decide)
  | @keep previous c s out hnone hrest ih =>
      obtain ⟨before, digits, after, heq, hrun, hside⟩ := hglued
      cases before with
      | nil =>
          -- the run begins here, and is kept from its second digit on
          obtain ⟨d, tail, rfl⟩ : ∃ d tail, digits = d :: tail :=
            List.exists_cons_of_ne_nil (List.ne_nil_of_length_pos (by have := hrun.2; omega))
          obtain ⟨rfl, rfl⟩ := List.cons.inj heq
          have hc := isWordChar_of_isDigit (hrun.1 c List.mem_cons_self)
          have htail := prefix_of_replaced hc
            (fun e he ↦ hrun.1 e (List.mem_cons_of_mem _ he)) hrest
          exact ⟨c :: tail, hrun, ((List.prefix_cons_inj c).mpr htail).isInfix⟩
      | cons b before =>
          obtain ⟨rfl, rfl⟩ := List.cons.inj heq
          have hlater : GluedAfter (some c) (before ++ (digits ++ after)) := by
            refine ⟨before, digits, after, rfl, hrun, hside.imp (fun hbefore ↦ ?_) id⟩
            cases before with
            | nil => exact hbefore
            | cons d before => exact hbefore
          obtain ⟨word, hword, hin⟩ := ih hlater
          exact ⟨word, hword, List.infix_cons hin⟩
  | @found previous matched rest replacement out hway hmatched hrest ih =>
      obtain ⟨-, found, hfound, hsplit, hprevious, hnext⟩ :=
        mem_codePattern.mp (List.mem_of_mem_head? hway)
      obtain rfl := List.append_cancel_right hsplit
      obtain ⟨before, digits, after, heq, hrun, hside⟩ := hglued
      rcases lt_or_ge before.length matched.length with hshort | hlong
      · exact absurd hside (not_glued_of_match hfound.1 hprevious hnext hrun heq hshort)
      · -- the run is behind the match
        obtain ⟨between, rfl, rfl⟩ : ∃ between, before = matched ++ between ∧
            rest = between ++ (digits ++ after) := by
          rcases List.append_eq_append_iff.mp heq with hbehind | ⟨inner, rfl, hinner⟩
          · exact hbehind
          · have hempty : inner = [] := by
              rw [List.length_append] at hlong
              exact List.length_eq_zero_iff.mp (by omega)
            subst hempty
            exact ⟨[], by simp, hinner.symm⟩
        have hlater : GluedAfter matched.getLast? (between ++ (digits ++ after)) := by
          refine ⟨between, digits, after, rfl, hrun, hside.imp (fun hbefore ↦ ?_) id⟩
          have hlast := List.getLast?_eq_some_getLast hmatched
          rw [List.getLast?_append, Option.or_assoc, hlast, Option.some_or] at hbefore
          rwa [hlast]
        obtain ⟨word, hword, hin⟩ := ih hlater
        exact ⟨word, hword, hin.trans List.infix_append_right⟩

/-- At a long run that is not matched, there is one that is glued, if no digit comes before. -/
theorem glued_of_firstMatch_eq_none {previous : Option Char} {s : Text}
    (hnone : (codePattern previous).firstMatch s = none)
    (hlong : 4 ≤ (s.takeWhile Char.isDigit).length)
    (hprevious : previous.any Char.isDigit = false) :
    GluedAfter previous s := by
  have hrun : IsDigitRun (s.takeWhile Char.isDigit) :=
    ⟨fun c hc ↦ List.mem_takeWhile_imp hc, hlong⟩
  refine ⟨[], s.takeWhile Char.isDigit, s.dropWhile Char.isDigit,
    List.takeWhile_append_dropWhile.symm, hrun, ?_⟩
  by_contra hfree
  rw [not_or] at hfree
  have hclear : ∀ {c : Option Char}, c.any Char.isDigit = false →
      ¬c.any isLetterOrUnderscore = true → c.any isWordChar = false := by
    intro c hdigit hletter
    cases c with
    | none => rfl
    | some c => simp_all [isLetterOrUnderscore]
  have hafter : (s.dropWhile Char.isDigit).head?.any Char.isDigit = false := by
    cases hrest : s.dropWhile Char.isDigit with
    | nil => rfl
    | cons c rest =>
        have hne : s.dropWhile Char.isDigit ≠ [] := hrest ▸ List.cons_ne_nil _ _
        have hc := List.head_dropWhile_not Char.isDigit hne
        simpa [hrest] using hc
  have hway : (redactedNumber, s.dropWhile Char.isDigit) ∈ codePattern previous s :=
    mem_codePattern.mpr ⟨rfl, _, hrun, List.takeWhile_append_dropWhile.symm,
      hclear hprevious hfree.1, hclear hafter hfree.2⟩
  rw [List.head?_eq_none_iff.mp hnone] at hway
  exact List.not_mem_nil hway

/-- The block that is put in for a number is not next to a digit. -/
theorem fence_redactedNumber : Fence Char.isDigit redactedNumber :=
  ⟨⟨'[', rfl, rfl⟩, ⟨']', rfl, rfl⟩⟩

/-- A run that is left is glued, if the text does not go on with a long run after a digit. -/
theorem glued_of_contains {previous : Option Char} {s out : Text}
    (h : Replaced codePattern previous s out)
    (hbegin : previous.any Char.isDigit = true → (s.takeWhile Char.isDigit).length < 4)
    (hcontains : Contains IsDigitRun out) : GluedAfter previous s := by
  induction h with
  | nil previous =>
      obtain ⟨word, hrun, hword⟩ := hcontains
      obtain rfl := List.infix_nil.mp hword
      exact absurd hrun.2 (by decide)
  | @keep previous c s out hnone hrest ih =>
      obtain ⟨word, hrun, hword⟩ := hcontains
      rcases Nat.lt_or_ge ((c :: s).takeWhile Char.isDigit).length 4 with hshort | hlong
      · rcases List.infix_cons_iff.mp hword with hfirst | hlater
        · -- a run that is kept here is one of the text
          obtain ⟨word', ⟨rest, hsplit⟩, hmap⟩ := (Replaced.keep hnone hrest).prefix_of_fences
            fences_codePattern fence_redactedNumber hrun.1 hfirst
          rw [List.map_id, List.map_id] at hmap
          rw [← hsplit, hmap, List.takeWhile_append_of_pos hrun.1, List.length_append] at hshort
          have hlength := hrun.2
          omega
        · have hnext : Option.any Char.isDigit (some c) = true →
              (s.takeWhile Char.isDigit).length < 4 := by
            intro hc
            rw [Option.any_some] at hc
            rw [List.takeWhile_cons_of_pos hc, List.length_cons] at hshort
            omega
          have hglued : GluedAfter ([c].getLast?.or previous) s := ih hnext ⟨word, hrun, hlater⟩
          exact hglued.append
      · have hprevious : previous.any Char.isDigit = false := by
          by_contra hdigit
          exact absurd (hbegin (by simpa using hdigit)) (Nat.not_lt.mpr hlong)
        exact glued_of_firstMatch_eq_none hnone hlong hprevious
  | @found previous matched rest replacement out hway hmatched hrest ih =>
      obtain ⟨hreplacement, found, hfound, hsplit, -, hnext⟩ :=
        mem_codePattern.mp (List.mem_of_mem_head? hway)
      obtain rfl : replacement = redactedNumber := hreplacement
      obtain ⟨word, hrun, hword⟩ := hcontains
      have hnone : rest.takeWhile Char.isDigit = [] := by
        cases rest with
        | nil => rfl
        | cons c rest =>
            refine List.takeWhile_cons_of_neg fun hc ↦ ?_
            exact absurd (hnext.symm.trans (isWordChar_of_isDigit hc)) Bool.false_ne_true
      have hblock : ∀ c ∈ redactedNumber, (!c.isDigit) = true := List.all_eq_true.mp rfl
      rcases infix_append_of_getLast rfl rfl hrun.1 hword with hin | hlater
      · obtain ⟨d, hd⟩ := List.exists_mem_of_length_pos (show 0 < word.length by
          have := hrun.2
          omega)
        have hdigit := hblock d (hin.subset hd)
        rw [hrun.1 d hd] at hdigit
        exact absurd hdigit Bool.false_ne_true
      · have hglued := ih (fun _ ↦ by rw [hnone]; decide) ⟨word, hrun, hlater⟩
        obtain ⟨last, hlast⟩ : ∃ last, matched.getLast? = some last :=
          ⟨_, List.getLast?_eq_some_getLast hmatched⟩
        refine GluedAfter.append ?_
        rwa [hlast, Option.some_or, ← hlast]

/-! ## Where glued runs come from -/

/-- A run of four or more digits with a letter or an underscore on one side. -/
def IsGlued (word : Text) : Prop :=
  ∃ c digits, isLetterOrUnderscore c = true ∧ IsDigitRun digits ∧
    (word = [c] ++ digits ∨ word = digits ++ [c])

/-- A glued run is a word of a text. -/
theorem glued_iff {text : Text} : Glued text ↔ Contains IsGlued text := by
  constructor
  · rintro ⟨before, digits, after, rfl, hrun, hbefore | hafter⟩
    · rw [Option.or_none] at hbefore
      rcases List.eq_nil_or_concat before with rfl | ⟨front, c, rfl⟩
      · exact absurd hbefore Bool.false_ne_true
      · rw [List.concat_eq_append, List.getLast?_concat, Option.any_some] at hbefore
        exact ⟨[c] ++ digits, ⟨c, digits, hbefore, hrun, .inl rfl⟩, front, after, by simp⟩
    · cases after with
      | nil => exact absurd hafter Bool.false_ne_true
      | cons c after =>
          exact ⟨digits ++ [c], ⟨c, digits, hafter, hrun, .inr rfl⟩, before, after, by simp⟩
  · rintro ⟨_, ⟨c, digits, hc, hrun, rfl | rfl⟩, before, after, rfl⟩
    · exact ⟨before ++ [c], digits, after, by simp, hrun, .inl (by simpa using hc)⟩
    · exact ⟨before, digits, c :: after, by simp, hrun, .inr hc⟩

/-- Case does not matter for digits, letters and underscores. -/
theorem toLower_class (c : Char) : c.toLower.isDigit = c.isDigit ∧
    isLetterOrUnderscore c.toLower = isLetterOrUnderscore c :=
  LowerCase.forall_toLower (p := fun c d ↦ d.isDigit = c.isDigit ∧
    isLetterOrUnderscore d = isLetterOrUnderscore c) (fun _ ↦ ⟨rfl, rfl⟩) (by decide +kernel) c

/-- Case does not matter for a run of digits. -/
theorem IsDigitRun.of_toLower {digits digits' : Text} (h : IsDigitRun digits)
    (hmap : digits'.map Char.toLower = digits.map Char.toLower) : IsDigitRun digits' := by
  constructor
  · intro c hc
    have hlower : c.toLower ∈ digits.map Char.toLower := hmap ▸ List.mem_map_of_mem hc
    obtain ⟨d, hd, heq⟩ := List.mem_map.mp hlower
    rw [← (toLower_class c).1, ← heq, (toLower_class d).1]
    exact h.1 d hd
  · rw [← List.length_map Char.toLower, hmap, List.length_map]
    exact h.2

/-- Case does not matter for a glued run. -/
theorem IsGlued.of_toLower {word word' : Text} (h : IsGlued word)
    (hmap : word'.map Char.toLower = word.map Char.toLower) : IsGlued word' := by
  have hside : ∀ {c : Char} {side : Text}, isLetterOrUnderscore c = true →
      side.map Char.toLower = [c].map Char.toLower →
      ∃ c', side = [c'] ∧ isLetterOrUnderscore c' = true := by
    intro c side hc hlower
    obtain ⟨c', rfl⟩ := List.length_eq_one_iff.mp
      (show side.length = 1 by rw [← List.length_map Char.toLower, hlower]; rfl)
    refine ⟨c', rfl, ?_⟩
    rw [← (toLower_class c').2, List.cons.inj hlower |>.1, (toLower_class c).2]
    exact hc
  obtain ⟨c, digits, hc, hrun, rfl | rfl⟩ := h
  · rw [List.map_append, List.map_eq_append_iff] at hmap
    obtain ⟨side, digits', rfl, hone, hdigits⟩ := hmap
    obtain ⟨c', rfl, hc'⟩ := hside hc hone
    exact ⟨c', digits', hc', hrun.of_toLower hdigits, .inl rfl⟩
  · rw [List.map_append, List.map_eq_append_iff] at hmap
    obtain ⟨digits', side, rfl, hdigits, hone⟩ := hmap
    obtain ⟨c', rfl, hc'⟩ := hside hc hone
    exact ⟨c', digits', hc', hrun.of_toLower hdigits, .inr rfl⟩

/-- Replacing glues no digits, if what is put in has none and ends in neither digits nor letters. -/
theorem not_glued_replaceEvery {rule : Option Char → Pattern Char Text} {block text : Text}
    (hfences : Fences Char.toLower rule block) (hblock : Fence isWordChar block)
    (hdigits : (block.all fun c ↦ !c.isDigit) = true) (h : ¬Glued text) :
    ¬Glued (replaceEvery rule text) := by
  rw [glued_iff] at h ⊢
  rintro ⟨word, hglued, hword⟩
  obtain ⟨c, digits, hc, hrun, hsides⟩ := hglued
  have hmem : ∀ d, d ∈ word ↔ d = c ∨ d ∈ digits := by
    intro d
    rcases hsides with rfl | rfl
    · simp
    · simp [or_comm]
  have hok : ∀ d ∈ word, isWordChar d = true := by
    intro d hd
    rcases (hmem d).mp hd with rfl | hin
    · exact (Bool.and_eq_true_iff.mp hc).1
    · exact isWordChar_of_isDigit (hrun.1 d hin)
  rcases (hfences.replaced text).infix_of_fences hfences hblock hok hword with
    hin | ⟨word', hword', hmap⟩
  · obtain ⟨d, hd⟩ := List.exists_mem_of_length_pos (show 0 < digits.length by
      have := hrun.2
      omega)
    have hdigit := List.all_eq_true.mp hdigits d (hin.subset ((hmem d).mpr (.inr hd)))
    rw [hrun.1 d hd] at hdigit
    exact absurd hdigit Bool.false_ne_true
  · exact h ⟨word', IsGlued.of_toLower ⟨c, digits, hc, hrun, hsides⟩ hmap, hword'⟩

/-- For a bearer token, its keyword is kept up to case. -/
theorem fences_bearerPattern : Fences Char.toLower bearerPattern " [redacted-token]".toList := by
  intro previous s way hway
  obtain ⟨_, s₁, hkeyword, hbehind⟩ := mem_followedBy.mp hway
  obtain ⟨keyword, rfl, hcase⟩ := mem_caseless hkeyword
  simp only [mem_greedyAtLeast_followedBy, mem_succeed] at hbehind
  obtain ⟨spaces, _, rfl, hspaces, token, rest, rfl, -, rfl⟩ := hbehind
  have hne : spaces ≠ [] := List.ne_nil_of_length_pos hspaces.2
  refine ⟨keyword ++ (spaces ++ token), by simp [hne], by simp, "Bearer".toList, [], rfl, ?_,
    List.nil_suffix⟩
  rw [List.map_append, hcase]
  exact List.prefix_append _ _

/-- The first six replacements glue no digits. -/
theorem not_glued_redactKnown {text : Text} (h : ¬Glued text) : ¬Glued (redactKnown text) := by
  have htokens := not_glued_replaceEvery fences_bearerPattern
    ⟨⟨' ', rfl, rfl⟩, ⟨']', rfl, rfl⟩⟩ rfl h
  have hjwts := not_glued_replaceEvery (fences_jwtPattern.map Char.toLower)
    ⟨⟨'[', rfl, rfl⟩, ⟨']', rfl, rfl⟩⟩ rfl htokens
  have hmembers := not_glued_replaceEvery (fences_memberPattern.map Char.toLower)
    ⟨⟨'[', rfl, rfl⟩, ⟨']', rfl, rfl⟩⟩ rfl hjwts
  have hassignments := not_glued_replaceEvery (fences_assignmentPattern.map Char.toLower)
    ⟨⟨'[', rfl, rfl⟩, ⟨']', rfl, rfl⟩⟩ rfl hmembers
  have hemails := not_glued_replaceEvery (fences_emailPattern.map Char.toLower)
    ⟨⟨'[', rfl, rfl⟩, ⟨']', rfl, rfl⟩⟩ rfl hassignments
  exact not_glued_replaceEvery (fences_numberPattern.map Char.toLower)
    ⟨⟨'[', rfl, rfl⟩, ⟨']', rfl, rfl⟩⟩ rfl hemails

/-! ## What does not get through -/

/-- No JWT gets through. -/
theorem not_contains_isJwt (text : Text) :
    ¬Contains IsJwt (sanitizeCognitoDiagnosticText text) := by
  have hjwts := not_contains_of_mem_iff ⟨⟨'[', rfl, rfl⟩, ⟨']', rfl, rfl⟩⟩ marked_isJwt
    (by decide) mem_jwtPattern (replaceEvery bearerPattern text)
  have hmembers := fences_memberPattern.not_contains ⟨⟨'[', rfl, rfl⟩, ⟨']', rfl, rfl⟩⟩
    marked_isJwt (by decide) hjwts
  have hassignments := fences_assignmentPattern.not_contains
    ⟨⟨'[', rfl, rfl⟩, ⟨']', rfl, rfl⟩⟩ marked_isJwt (by decide) hmembers
  have hemails := fences_emailPattern.not_contains ⟨⟨'[', rfl, rfl⟩, ⟨']', rfl, rfl⟩⟩
    marked_isJwt (by decide) hassignments
  have hnumbers := fences_numberPattern.not_contains ⟨⟨'[', rfl, rfl⟩, ⟨']', rfl, rfl⟩⟩
    marked_isJwt (by decide) hemails
  exact fences_codePattern.not_contains ⟨⟨'[', rfl, rfl⟩, ⟨']', rfl, rfl⟩⟩ marked_isJwt
    (by decide) hnumbers

/-- No email address that the pattern covers gets through the first six replacements. -/
theorem not_contains_isEmail (text : Text) : ¬Contains IsEmail (redactKnown text) :=
  fences_numberPattern.not_contains ⟨⟨'[', rfl, rfl⟩, ⟨']', rfl, rfl⟩⟩ marked_isEmail (by decide)
    (not_contains_of_mem_iff ⟨⟨'[', rfl, rfl⟩, ⟨']', rfl, rfl⟩⟩ marked_isEmail (by decide)
      mem_emailPattern _)

end CoreUtils.Toolkit.Cognito
