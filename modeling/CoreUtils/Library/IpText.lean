import CoreUtils.Library.IpAddress
import CoreUtils.Library.LowerCase
import Mathlib.Data.List.DropRight

/-!
# The text of addresses

An address without a zone consists of hexadecimal digits, colons and dots (`char_of_isIP`), and if
it has a dot then decimal digits stand after the last one (`lastLabel_of_isIP`). Case does not
matter (`isIP_map_toLower`).
-/

namespace CoreUtils.Ip

/-! ## Splitting at a separator -/

section Split

variable {α : Type*} [DecidableEq α] {sep c : α} {s t : List α}

/-- What stands after the last separator has no separator. -/
theorem not_mem_rtakeWhile : sep ∉ s.rtakeWhile (· ≠ sep) := fun hmem ↦ by
  simpa using List.mem_rtakeWhile_imp hmem

/-- A text with a separator is what stands before the last one and what stands after it. -/
theorem exists_last_separator (h : sep ∈ s) :
    ∃ before, s = before ++ sep :: s.rtakeWhile (· ≠ sep) := by
  have hne : s.rdropWhile (· ≠ sep) ≠ [] := by
    rw [Ne, List.rdropWhile_eq_nil_iff]
    exact fun hall ↦ by simpa using hall sep h
  have hlast := List.rdropWhile_last_not (· ≠ sep) s hne
  refine ⟨(s.rdropWhile (· ≠ sep)).dropLast, ?_⟩
  have hsep : (s.rdropWhile (· ≠ sep)).getLast hne = sep := by simpa using hlast
  conv_lhs => rw [← List.rdropWhile_append_rtakeWhile (p := fun c ↦ decide (c ≠ sep)) (l := s),
    ← List.dropLast_append_getLast hne, hsep]
  simp

/-- What stands after the last separator is the last piece. -/
theorem splitOn_eq_concat (h : sep ∈ s) :
    ∃ before, s = before ++ sep :: s.rtakeWhile (· ≠ sep) ∧
      s.splitOn sep = before.splitOn sep ++ [s.rtakeWhile (· ≠ sep)] := by
  obtain ⟨before, hsplit⟩ := exists_last_separator h
  refine ⟨before, hsplit, ?_⟩
  conv_lhs => rw [hsplit, List.splitOn_append_cons_self,
    List.splitOn_eq_singleton not_mem_rtakeWhile]

/-- A character is a separator or stands in a piece. -/
theorem mem_splitOn (sep : α) (h : c ∈ s) : c = sep ∨ ∃ piece ∈ s.splitOn sep, c ∈ piece := by
  induction s with
  | nil => simp at h
  | cons d s ih =>
      rw [List.splitOn_cons_eq_if_modifyHead]
      by_cases hsep : d = sep
      · rw [if_pos (by simpa using hsep)]
        rcases List.mem_cons.mp h with rfl | hrest
        · exact .inl hsep
        · exact (ih hrest).imp_right fun ⟨piece, hpiece, hc⟩ ↦
            ⟨piece, List.mem_cons_of_mem _ hpiece, hc⟩
      · rw [if_neg (by simpa using hsep)]
        obtain ⟨first, pieces, hpieces⟩ :=
          List.exists_cons_of_ne_nil (List.splitOn_ne_nil sep s)
        rw [hpieces, List.modifyHead_cons]
        rcases List.mem_cons.mp h with rfl | hrest
        · exact .inr ⟨c :: first, List.mem_cons_self, List.mem_cons_self⟩
        · refine (ih hrest).imp_right fun ⟨piece, hpiece, hc⟩ ↦ ?_
          rw [hpieces] at hpiece
          rcases List.mem_cons.mp hpiece with rfl | hlater
          · exact ⟨d :: piece, List.mem_cons_self, List.mem_cons_of_mem _ hc⟩
          · exact ⟨piece, List.mem_cons_of_mem _ hlater, hc⟩

/-- What stands after the last separator. -/
theorem rtakeWhile_append_cons (h : sep ∉ t) (s : List α) :
    (s ++ sep :: t).rtakeWhile (· ≠ sep) = t := by
  rw [List.rtakeWhile, List.reverse_append, List.reverse_cons, List.append_assoc,
    List.takeWhile_append_of_pos, List.singleton_append, List.takeWhile_cons_of_neg (by simp),
    List.append_nil, List.reverse_reverse]
  intro c hc
  simpa using fun heq : c = sep ↦ h (heq ▸ List.mem_reverse.mp hc)

/-- What stands after the last separator is the same in every longer text. -/
theorem rtakeWhile_append (h : sep ∈ t) (s : List α) :
    (s ++ t).rtakeWhile (· ≠ sep) = t.rtakeWhile (· ≠ sep) := by
  obtain ⟨before, hsplit⟩ := exists_last_separator h
  conv_lhs => rw [hsplit, ← List.append_assoc, rtakeWhile_append_cons not_mem_rtakeWhile]

end Split

/-! ## Digits -/

/-- Whether a text consists of characters that all have a value. -/
theorem isSome_of_mapM {α β : Type*} {f : α → Option β} {s : List α} {values : List β}
    (h : s.mapM f = some values) : ∀ c ∈ s, (f c).isSome = true := by
  induction s generalizing values with
  | nil => simp
  | cons c s ih =>
      rw [List.mapM_cons, Option.bind_eq_bind, Option.bind_eq_some_iff] at h
      obtain ⟨value, hvalue, hrest⟩ := h
      rw [Option.bind_eq_bind, Option.bind_eq_some_iff] at hrest
      obtain ⟨rest, hrest, -⟩ := hrest
      intro d hd
      rcases List.mem_cons.mp hd with rfl | hd
      · simp [hvalue]
      · exact ih hrest d hd

/-- A decimal digit is a hexadecimal digit. -/
theorem isSome_hexDigit {c : Char} (h : (decimalDigit c).isSome = true) :
    (hexDigit c).isSome = true := by
  unfold decimalDigit at h
  unfold hexDigit
  split at h
  · rename_i hrange
    simp [hrange]
  · simp at h

variable {text : List Char}

/-- A segment of an IPv4 address consists of decimal digits. -/
theorem digits_of_parseOctet (h : (parseOctet text).isSome = true) :
    text ≠ [] ∧ ∀ c ∈ text, (decimalDigit c).isSome = true := by
  obtain ⟨value, hvalue⟩ := Option.isSome_iff_exists.mp h
  rw [parseOctet, Option.bind_eq_bind, Option.bind_eq_some_iff] at hvalue
  obtain ⟨digits, hdigits, hvalue⟩ := hvalue
  refine ⟨?_, isSome_of_mapM hdigits⟩
  rintro rfl
  obtain rfl : [] = digits := by simpa using hdigits
  simp at hvalue

/-- A group of an IPv6 address consists of hexadecimal digits. -/
theorem digits_of_parseGroup (h : (parseGroup text).isSome = true) :
    ∀ c ∈ text, (hexDigit c).isSome = true := by
  obtain ⟨value, hvalue⟩ := Option.isSome_iff_exists.mp h
  rw [parseGroup, Option.bind_eq_bind, Option.bind_eq_some_iff] at hvalue
  obtain ⟨digits, hdigits, -⟩ := hvalue
  exact isSome_of_mapM hdigits

/-! ## Addresses -/

/-- Every piece of an IPv4 address is a segment, and there is a dot between them. -/
theorem pieces_of_parseIPv4 (h : (parseIPv4 text).isSome = true) :
    '.' ∈ text ∧ ∀ piece ∈ text.splitOn '.', (parseOctet piece).isSome = true := by
  obtain ⟨value, hvalue⟩ := Option.isSome_iff_exists.mp h
  rw [parseIPv4, Option.bind_eq_bind, Option.bind_eq_some_iff] at hvalue
  obtain ⟨octets, hoctets, hvalue⟩ := hvalue
  refine ⟨?_, isSome_of_mapM hoctets⟩
  by_contra hdot
  rw [List.splitOn_eq_singleton hdot, List.mapM_cons, Option.bind_eq_bind,
    Option.bind_eq_some_iff] at hoctets
  obtain ⟨octet, -, hrest⟩ := hoctets
  obtain rfl : [octet] = octets := by simpa using hrest
  simp at hvalue

/-- A text of decimal digits, and of at least one. -/
def IsLabel (text : List Char) : Prop :=
  text ≠ [] ∧ ∀ c ∈ text, (decimalDigit c).isSome = true

/-- Whether a text is such a label can be checked. -/
instance (text : List Char) : Decidable (IsLabel text) :=
  @instDecidableAnd _ _ inferInstance (List.decidableBAll _ text)

/-- What stands after the last dot. -/
def lastLabel (text : List Char) : List Char := text.rtakeWhile (· ≠ '.')

/-- The last label of a longer name. -/
theorem lastLabel_append (before text : List Char) :
    lastLabel (before ++ '.' :: text) = lastLabel text := by
  by_cases hdot : '.' ∈ text
  · have hparts : before ++ '.' :: text = (before ++ ['.']) ++ text := by simp
    rw [hparts]
    exact rtakeWhile_append hdot _
  · have hself : lastLabel text = text :=
      List.rtakeWhile_eq_self_iff.mpr fun c hc ↦ by
        simpa using fun heq : c = '.' ↦ hdot (heq ▸ hc)
    rw [hself]
    exact rtakeWhile_append_cons hdot before

/-- Decimal digits stand after the last dot of an IPv4 address. -/
theorem lastLabel_of_parseIPv4 (h : (parseIPv4 text).isSome = true) : IsLabel (lastLabel text) := by
  obtain ⟨hdot, hpieces⟩ := pieces_of_parseIPv4 h
  obtain ⟨before, -, hsplit⟩ := splitOn_eq_concat hdot
  exact digits_of_parseOctet (hpieces _ (by rw [hsplit]; simp [lastLabel]))

/-- An IPv4 address consists of decimal digits and dots. -/
theorem char_of_parseIPv4 (h : (parseIPv4 text).isSome = true) :
    ∀ c ∈ text, (decimalDigit c).isSome = true ∨ c = '.' := by
  intro c hc
  rcases mem_splitOn '.' hc with hsep | ⟨piece, hpiece, hmem⟩
  · exact .inr hsep
  · exact .inl ((digits_of_parseOctet ((pieces_of_parseIPv4 h).2 piece hpiece)).2 c hmem)

/-- A dotted address is an IP literal. -/
theorem isIP_of_parseIPv4 (h : (parseIPv4 text).isSome = true) : (isIP text).isSome = true := by
  rw [isIP, if_pos h]
  rfl

/-- A character of an IPv6 address. -/
def IsIPv6Char (c : Char) : Prop := (hexDigit c).isSome = true ∨ c = ':' ∨ c = '.'

/-- A group has no dot, and consists of characters of an IPv6 address. -/
theorem char_of_parseGroup (h : (parseGroup text).isSome = true) :
    (∀ c ∈ text, IsIPv6Char c) ∧ '.' ∉ text := by
  refine ⟨fun c hc ↦ .inl (digits_of_parseGroup h c hc), fun hdot ↦ ?_⟩
  have hdigit := digits_of_parseGroup h '.' hdot
  exact absurd hdigit (by decide)

/-- Only the last group can be an IPv4 address. -/
theorem parseGroups_concat {before : List (List Char)} {last : List Char}
    (h : (parseGroups (before ++ [last])).isSome = true) :
    (∀ group ∈ before, (parseGroup group).isSome = true) ∧
      ((parseIPv4 last).isSome = true ∨ (parseGroup last).isSome = true) := by
  induction before with
  | nil =>
      refine ⟨by simp, ?_⟩
      rw [List.nil_append, parseGroups] at h
      split at h
      · rename_i address haddress
        exact .inl (by rw [haddress]; rfl)
      · exact .inr (by simpa using h)
  | cons group before ih =>
      obtain ⟨values, hvalues⟩ := Option.isSome_iff_exists.mp h
      have hmore : before ++ [last] = [] → False := by simp
      rw [List.cons_append, parseGroups.eq_3 _ _ hmore, Option.bind_eq_bind,
        Option.bind_eq_some_iff] at hvalues
      obtain ⟨value, hvalue, hrest⟩ := hvalues
      rw [Option.bind_eq_bind, Option.bind_eq_some_iff] at hrest
      obtain ⟨others, hothers, -⟩ := hrest
      obtain ⟨hgroups, hlast⟩ := ih (by rw [hothers]; rfl)
      refine ⟨fun other hother ↦ ?_, hlast⟩
      rcases List.mem_cons.mp hother with rfl | hother
      · rw [hvalue]
        rfl
      · exact hgroups other hother

/-- Colon-separated groups consist of characters of an IPv6 address, and if they have a dot then
decimal digits stand after the last one. -/
theorem text_of_parseGroups (h : (parseGroups (text.splitOn ':')).isSome = true) :
    (∀ c ∈ text, IsIPv6Char c) ∧ ('.' ∈ text → IsLabel (lastLabel text)) := by
  have hlastGroup : ∀ last : List Char,
      (parseIPv4 last).isSome = true ∨ (parseGroup last).isSome = true →
      (∀ c ∈ last, IsIPv6Char c) ∧ ('.' ∈ last → IsLabel (lastLabel last)) := by
    rintro last (hipv4 | hgroup)
    · refine ⟨fun c hc ↦ ?_, fun _ ↦ lastLabel_of_parseIPv4 hipv4⟩
      rcases char_of_parseIPv4 hipv4 c hc with hdigit | rfl
      · exact .inl (isSome_hexDigit hdigit)
      · exact .inr (.inr rfl)
    · exact ⟨(char_of_parseGroup hgroup).1, fun hdot ↦ absurd hdot (char_of_parseGroup hgroup).2⟩
  by_cases hcolon : ':' ∈ text
  · obtain ⟨before, htext, hsplit⟩ := splitOn_eq_concat hcolon
    rw [hsplit] at h
    obtain ⟨hgroups, hlast⟩ := parseGroups_concat h
    obtain ⟨hchars, hlabel⟩ := hlastGroup _ hlast
    constructor
    · intro c hc
      rcases mem_splitOn ':' hc with rfl | ⟨piece, hpiece, hmem⟩
      · exact .inr (.inl rfl)
      · rw [hsplit, List.mem_append] at hpiece
        rcases hpiece with hbefore | hlast
        · exact (char_of_parseGroup (hgroups piece hbefore)).1 c hmem
        · rw [List.mem_singleton.mp hlast] at hmem
          exact hchars c hmem
    · intro hdot
      have hdotLast : '.' ∈ text.rtakeWhile (· ≠ ':') := by
        rcases mem_splitOn ':' hdot with hsep | ⟨piece, hpiece, hmem⟩
        · exact absurd hsep (by decide)
        · rw [hsplit, List.mem_append] at hpiece
          rcases hpiece with hbefore | hlast
          · exact absurd hmem (char_of_parseGroup (hgroups piece hbefore)).2
          · rwa [List.mem_singleton.mp hlast] at hmem
      have hsame : lastLabel text = lastLabel (text.rtakeWhile (· ≠ ':')) := by
        have hcolonFirst : text = (before ++ [':']) ++ text.rtakeWhile (· ≠ ':') := by
          simpa using htext
        conv_lhs => rw [hcolonFirst]
        exact rtakeWhile_append hdotLast _
      rw [hsame]
      exact hlabel hdotLast
  · rw [List.splitOn_eq_singleton hcolon] at h
    have hconcat : (parseGroups ([] ++ [text])).isSome = true := h
    exact hlastGroup text (parseGroups_concat hconcat).2

/-- The two sides of an elision. -/
theorem eq_of_splitElision {front back : List Char} (h : splitElision text = some (front, back)) :
    text = front ++ ':' :: ':' :: back := by
  induction text using splitElision.induct generalizing front with
  | case1 rest =>
      rw [splitElision, Option.some.injEq, Prod.mk.injEq] at h
      obtain ⟨rfl, rfl⟩ := h
      rfl
  | case2 c rest hother ih =>
      rw [splitElision.eq_2 _ _ hother, Option.map_eq_some_iff] at h
      obtain ⟨⟨front, back⟩, hrest, hpair⟩ := h
      obtain ⟨rfl, rfl⟩ := Prod.mk.inj hpair
      rw [ih hrest, List.cons_append]
  | case3 =>
      exact absurd h (by simp [splitElision])

/-- What `text_of_parseGroups` says, for a side of an elision. -/
theorem text_of_parseSide (h : (parseSide text).isSome = true) :
    (∀ c ∈ text, IsIPv6Char c) ∧ ('.' ∈ text → IsLabel (lastLabel text)) := by
  rw [parseSide] at h
  split at h
  · rename_i hempty
    subst hempty
    exact ⟨by simp, by simp⟩
  · exact text_of_parseGroups h

/-- What `text_of_parseGroups` says, for an IPv6 address. -/
theorem text_of_parseIPv6Groups (h : (parseIPv6Groups text).isSome = true) :
    (∀ c ∈ text, IsIPv6Char c) ∧ ('.' ∈ text → IsLabel (lastLabel text)) := by
  obtain ⟨address, haddress⟩ := Option.isSome_iff_exists.mp h
  unfold parseIPv6Groups at haddress
  split at haddress
  · rw [Option.bind_eq_bind, Option.bind_eq_some_iff] at haddress
    obtain ⟨groups, hgroups, -⟩ := haddress
    exact text_of_parseGroups (Option.isSome_iff_exists.mpr ⟨groups, hgroups⟩)
  · rename_i front back helision
    split at haddress
    · simp at haddress
    · rename_i hdotFront
      simp only [Option.bind_eq_bind, Option.bind_eq_some_iff] at haddress
      obtain ⟨before, hbefore, after, hafter, -⟩ := haddress
      obtain ⟨hfront, -⟩ := text_of_parseSide (Option.isSome_iff_exists.mpr ⟨before, hbefore⟩)
      obtain ⟨hback, hlabel⟩ := text_of_parseSide (Option.isSome_iff_exists.mpr ⟨after, hafter⟩)
      have htext := eq_of_splitElision helision
      refine ⟨fun c hc ↦ ?_, fun hdot ↦ ?_⟩
      · rw [htext] at hc
        rcases List.mem_append.mp hc with hc | hc
        · exact hfront c hc
        · rcases List.mem_cons.mp hc with rfl | hc
          · exact .inr (.inl rfl)
          · rcases List.mem_cons.mp hc with rfl | hc
            · exact .inr (.inl rfl)
            · exact hback c hc
      · have hdotBack : '.' ∈ back := by
          rw [htext] at hdot
          simpa [hdotFront] using hdot
        have hsame : lastLabel text = lastLabel back := by
          have hsides : text = (front ++ [':', ':']) ++ back := by simpa using htext
          conv_lhs => rw [hsides]
          exact rtakeWhile_append hdotBack _
        rw [hsame]
        exact hlabel hdotBack

/-- What `text_of_parseGroups` says, for an IP literal without a zone. -/
theorem text_of_isIP (h : (isIP text).isSome = true) (hzone : '%' ∉ text) :
    (∀ c ∈ text, IsIPv6Char c) ∧ ('.' ∈ text → IsLabel (lastLabel text)) := by
  unfold isIP at h
  split at h
  · rename_i hipv4
    refine ⟨fun c hc ↦ ?_, fun _ ↦ lastLabel_of_parseIPv4 hipv4⟩
    rcases char_of_parseIPv4 hipv4 c hc with hdigit | rfl
    · exact .inl (isSome_hexDigit hdigit)
    · exact .inr (.inr rfl)
  · split at h
    · rename_i hipv6
      have hempty : text.dropWhile (· ≠ '%') = [] := by
        refine List.dropWhile_eq_nil_iff.mpr fun c hc ↦ ?_
        simpa using fun heq : c = '%' ↦ hzone (heq ▸ hc)
      rw [parseIPv6, hempty] at hipv6
      exact text_of_parseIPv6Groups hipv6
    · simp at h

/-- An address without a zone consists of hexadecimal digits, colons and dots. -/
theorem char_of_isIP (h : (isIP text).isSome = true) (hzone : '%' ∉ text) :
    ∀ c ∈ text, IsIPv6Char c :=
  (text_of_isIP h hzone).1

/-- An address without a zone does not end in a dot. -/
theorem getLast_of_isIP (h : (isIP text).isSome = true) (hzone : '%' ∉ text) :
    text.getLast? ≠ some '.' := by
  intro hdot
  obtain ⟨front, rfl⟩ := List.getLast?_eq_some_iff.mp hdot
  have hlabel := (text_of_isIP h hzone).2 (by simp)
  have hempty : lastLabel (front ++ ['.']) = [] := lastLabel_append front []
  exact hlabel.1 hempty

/-- Decimal digits stand after the last dot of an address without a zone. -/
theorem lastLabel_of_isIP (h : (isIP text).isSome = true) (hzone : '%' ∉ text)
    (hdot : '.' ∈ text) : IsLabel (lastLabel text) :=
  (text_of_isIP h hzone).2 hdot

/-! ## Case -/

/-- Splitting commutes with a translation of characters that leaves the separator alone. -/
theorem splitOn_map {sep : Char} {f : Char → Char} (hf : ∀ c, f c = sep ↔ c = sep)
    (s : List Char) : (s.map f).splitOn sep = (s.splitOn sep).map (List.map f) := by
  induction s with
  | nil => rfl
  | cons c s ih =>
      rw [List.map_cons, List.splitOn_cons_eq_if_modifyHead, List.splitOn_cons_eq_if_modifyHead, ih]
      by_cases hsep : c = sep
      · rw [if_pos (by simpa using (hf c).mpr hsep), if_pos (by simpa using hsep)]
        rfl
      · rw [if_neg (by simpa using mt (hf c).mp hsep), if_neg (by simpa using hsep)]
        obtain ⟨first, pieces, hpieces⟩ :=
          List.exists_cons_of_ne_nil (List.splitOn_ne_nil sep s)
        simp [hpieces]

/-- A digit of a text in another case is the digit. -/
theorem mapM_map {α β : Type*} {f : β → Option α} {g : β → β} (h : ∀ c, f (g c) = f c)
    (s : List β) : (s.map g).mapM f = s.mapM f := by
  induction s with
  | nil => rfl
  | cons c s ih => rw [List.map_cons, List.mapM_cons, List.mapM_cons, h, ih]

/-- Digits of either case have the same values, and case does not matter in a zone. -/
theorem digits_toLower (c : Char) : decimalDigit c.toLower = decimalDigit c ∧
    hexDigit c.toLower = hexDigit c ∧ isZoneChar c.toLower = isZoneChar c :=
  LowerCase.forall_toLower (p := fun c d ↦ decimalDigit d = decimalDigit c ∧
    hexDigit d = hexDigit c ∧ isZoneChar d = isZoneChar c) (fun _ ↦ ⟨rfl, rfl, rfl⟩)
    (by decide +kernel) c

/-- Lower case leaves separators alone. -/
theorem toLower_eq_iff {d : Char} (hd : LowerCase.IsMark d) (hsame : d.toLower = d) (c : Char) :
    c.toLower = d ↔ c = d := by
  constructor
  · intro h
    rcases LowerCase.toLower_eq_or c with heq | hlt
    · rw [← heq, h]
    · exact LowerCase.eq_of_toLower hlt hd h
  · rintro rfl
    exact hsame

/-- Case does not matter in a dotted address. -/
theorem parseIPv4_map_toLower (s : List Char) : parseIPv4 (s.map Char.toLower) = parseIPv4 s := by
  have hoctet : ∀ piece : List Char, parseOctet (piece.map Char.toLower) = parseOctet piece := by
    intro piece
    rw [parseOctet, mapM_map fun c ↦ (digits_toLower c).1, parseOctet]
  rw [parseIPv4, splitOn_map (toLower_eq_iff (by decide) (by decide)), mapM_map hoctet, parseIPv4]

/-- Case does not matter in groups. -/
theorem parseGroups_map_toLower (groups : List (List Char)) :
    parseGroups (groups.map (List.map Char.toLower)) = parseGroups groups := by
  have hgroup : ∀ group : List Char, parseGroup (group.map Char.toLower) = parseGroup group := by
    intro group
    rw [parseGroup, mapM_map fun c ↦ (digits_toLower c).2.1, parseGroup]
  induction groups using parseGroups.induct with
  | case1 => rfl
  | case2 last address haddress =>
      rw [List.map_singleton, parseGroups, parseGroups, parseIPv4_map_toLower, haddress]
  | case3 last hnone =>
      rw [List.map_singleton, parseGroups, parseGroups, parseIPv4_map_toLower, hnone, hgroup]
  | case4 group rest hmore ih =>
      have hmore' : rest.map (List.map Char.toLower) = [] → False := fun h ↦
        hmore (List.map_eq_nil_iff.mp h)
      rw [List.map_cons, parseGroups.eq_3 _ _ hmore', parseGroups.eq_3 _ _ hmore, hgroup, ih]

/-- Case does not matter for elisions. -/
theorem splitElision_map_toLower (s : List Char) :
    splitElision (s.map Char.toLower) =
      (splitElision s).map (Prod.map (List.map Char.toLower) (List.map Char.toLower)) := by
  have hcolon := toLower_eq_iff (d := ':') (by decide) (by decide)
  induction s using splitElision.induct with
  | case1 rest => rfl
  | case2 c rest hother ih =>
      have hother' : ∀ after, c.toLower = ':' → rest.map Char.toLower = ':' :: after → False := by
        intro after hc hrest
        obtain ⟨second, others, rfl, hsecond, -⟩ := List.map_eq_cons_iff.mp hrest
        rw [(hcolon second).mp hsecond] at hother
        exact hother others ((hcolon c).mp hc) rfl
      rw [List.map_cons, splitElision.eq_2 _ _ hother', ih, splitElision.eq_2 _ _ hother]
      cases splitElision rest <;> rfl
  | case3 => rfl

/-- Case does not matter in an address without a zone. -/
theorem parseIPv6Groups_map_toLower (s : List Char) :
    parseIPv6Groups (s.map Char.toLower) = parseIPv6Groups s := by
  have hcolon := toLower_eq_iff (d := ':') (by decide) (by decide)
  have hside : ∀ side : List Char, parseSide (side.map Char.toLower) = parseSide side := by
    intro side
    rw [parseSide, parseSide, splitOn_map hcolon, parseGroups_map_toLower]
    simp only [List.map_eq_nil_iff]
  have hdot : ∀ side : List Char, '.' ∈ side.map Char.toLower ↔ '.' ∈ side := by
    intro side
    have hone := toLower_eq_iff (d := '.') (by decide) (by decide)
    simp only [List.mem_map, hone, exists_eq_right]
  rw [parseIPv6Groups, parseIPv6Groups, splitElision_map_toLower]
  cases splitElision s with
  | none =>
      show (parseGroups ((s.map Char.toLower).splitOn ':')).bind _ = _
      rw [splitOn_map hcolon, parseGroups_map_toLower]
      rfl
  | some sides =>
      obtain ⟨front, back⟩ := sides
      simp only [Option.map_some, Prod.map_apply, hdot, hside]

/-- Case does not matter in an IP literal. -/
theorem isIP_map_toLower (s : List Char) : isIP (s.map Char.toLower) = isIP s := by
  have hpercent : (fun c ↦ decide (c ≠ '%')) ∘ Char.toLower = fun c ↦ decide (c ≠ '%') := by
    funext c
    have hone := toLower_eq_iff (d := '%') (by decide) (by decide) c
    simp only [Function.comp_apply, ne_eq, hone]
  have hzone : (fun c ↦ !isZoneChar c) ∘ Char.toLower = fun c ↦ !isZoneChar c := by
    funext c
    simp only [Function.comp_apply, (digits_toLower _).2.2]
  have hipv6 : parseIPv6 (s.map Char.toLower) = parseIPv6 s := by
    rw [parseIPv6, parseIPv6, List.dropWhile_map, List.takeWhile_map, hpercent]
    simp only [List.map_eq_nil_iff, List.length_map, parseIPv6Groups_map_toLower, ← List.map_tail,
      List.any_map, hzone]
  rw [isIP, isIP, parseIPv4_map_toLower, hipv6]

end CoreUtils.Ip
