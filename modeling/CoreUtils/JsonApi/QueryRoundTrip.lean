import Mathlib.Data.List.MinMax
import CoreUtils.JsonApi.Query

/-!
# The round trip of queries

Every pair that `stringifyQuery` writes is received with its value as it was and with its key
decoded once more than it was encoded (`parse_query_stringify_query`). The round trip therefore
succeeds exactly on the queries whose keys the second decoding leaves alone
(`parse_query_stringify_query_eq_iff`).
-/

namespace CoreUtils.JsonApi

open PercentEncoding

/-! ## The second decoding of keys -/

/-- A key that the default decoder leaves alone: it has no plus sign, and no percent sign unless the
key is malformed as an encoded text. -/
def Plain (key : Text) : Prop :=
  '+' ∉ key ∧ ('%' ∉ key ∨ decodeURIComponent key = none)

instance (key : Text) : Decidable (Plain key) := inferInstanceAs (Decidable (_ ∧ _))

/-- Text without plus signs is unchanged by turning them into blanks. -/
theorem plus_to_space_eq {text : Text} (h : '+' ∉ text) : plusToSpace text = text := by
  have hchar : ∀ c ∈ text, (if c = '+' then ' ' else c) = c := by
    intro c hc
    have hne : c ≠ '+' := by
      rintro rfl
      exact h hc
    exact if_neg hne
  simpa [plusToSpace] using List.map_congr_left hchar

/-- Turning plus signs into blanks takes the plus signs out of the weight. -/
theorem weight_plus_to_space (text : Text) :
    weight (plusToSpace text) + text.count '+' = weight text := by
  have hnone : (plusToSpace text).count '+' = 0 := by
    refine List.count_eq_zero.mpr fun hmem ↦ ?_
    obtain ⟨c, -, hc⟩ := List.mem_map.mp hmem
    by_cases hplus : c = '+'
    · simp [hplus] at hc
    · rw [if_neg hplus] at hc
      exact hplus hc
  rw [weight, weight, hnone, plusToSpace, List.length_map]
  omega

/-- The default decoder leaves plain keys alone. -/
theorem default_decode_eq {key : Text} (h : Plain key) : defaultDecode key = key := by
  rw [defaultDecode, plus_to_space_eq h.1]
  rcases h.2 with hpercent | hmalformed
  · rw [decodeURIComponent, decodeUpTo_of_not_mem hpercent le_rfl]
    rfl
  · rw [hmalformed]
    rfl

/-- The default decoder does not add to the weight of a key without plus signs. -/
theorem weight_default_decode_le (key : Text) :
    weight (defaultDecode key) ≤ weight (plusToSpace key) := by
  rw [defaultDecode]
  cases hdecoded : decodeURIComponent (plusToSpace key) with
  | none => exact le_rfl
  | some decoded => exact (weight_decodeUpTo hdecoded).1

/-- The default decoder takes weight from keys that are not plain. -/
theorem weight_default_decode_lt {key : Text} (h : ¬ Plain key) :
    weight (defaultDecode key) < weight key := by
  have hplus := weight_plus_to_space key
  by_cases hmem : '+' ∈ key
  · have hcount := List.count_pos_iff.mpr hmem
    have hle := weight_default_decode_le key
    omega
  · have hescape : '%' ∈ key ∧ decodeURIComponent key ≠ none := by
      simpa [Plain, hmem] using h
    obtain ⟨decoded, hdecoded⟩ := Option.ne_none_iff_exists'.mp hescape.2
    rw [defaultDecode, plus_to_space_eq hmem, hdecoded]
    exact (weight_decodeUpTo hdecoded).2 hescape.1

/-! ## Values -/

/-- A leaf of which the round trip is to be expected: without commas, and with two texts at least if
it is an array. -/
def Leaf.CommaFree : Leaf → Prop
  | .text value => ',' ∉ value
  | .array values => 2 ≤ values.length ∧ ∀ value ∈ values, ',' ∉ value

instance (value : Leaf) : Decidable value.CommaFree :=
  match value with
  | .text value => inferInstanceAs (Decidable (',' ∉ value))
  | .array values => inferInstanceAs (Decidable (2 ≤ values.length ∧ ∀ value ∈ values, ',' ∉ value))

/-- Joining two texts or more leaves a comma between them. -/
theorem comma_mem_joined {values : List Text} (h : 2 ≤ values.length) :
    ',' ∈ Leaf.joined (.array values) := by
  rcases values with - | ⟨first, - | ⟨second, rest⟩⟩
  · simp at h
  · simp at h
  · simp [Leaf.joined, List.intercalate]

/-- The decoder of `parseQuery` reads an encoded value back. -/
theorem query_decoder_value {value : Leaf} (h : value.CommaFree) (defaultDecoder : DefaultDecoder)
    (charset : Charset) :
    queryDecoder (percentEncode value.joined) defaultDecoder charset .value = some value := by
  cases value with
  | text value =>
      have hcomma : ',' ∉ value := h
      simp [queryDecoder, decodeURIComponent_percentEncode, Leaf.joined, hcomma]
  | array values =>
      obtain ⟨hlength, hcommas⟩ := h
      have hne : values ≠ [] := by
        rintro rfl
        simp at hlength
      have hsplit : (Leaf.joined (.array values)).splitOn ',' = values :=
        List.splitOn_intercalate ',' hcommas hne
      simp [queryDecoder, decodeURIComponent_percentEncode, comma_mem_joined hlength, hsplit]

/-- The decoder of `parseQuery` gives an encoded key to the default decoder. -/
theorem query_decoder_key (key : Text) (defaultDecoder : DefaultDecoder) (charset : Charset) :
    queryDecoder (percentEncode key) defaultDecoder charset .key =
      some (.text (defaultDecoder key charset .key)) := by
  simp [queryDecoder, decodeURIComponent_percentEncode]

/-! ## The text of a query -/

/-- Encoded texts have none of the characters that separate keys and values. -/
theorem not_mem_percent_encode {c : Char} (hpercent : c ≠ '%') (hreserved : unreserved c = false)
    (text : Text) : c ∉ percentEncode text := by
  intro hmem
  rcases mem_percentEncode hmem with rfl | hunreserved
  · exact hpercent rfl
  · simp [hreserved] at hunreserved

/-- An encoded pair has no ampersand. -/
theorem ampersand_not_mem (pair : Text × Leaf) : '&' ∉ encodedPair pair := by
  have hencoded := not_mem_percent_encode (c := '&') (by decide) (by decide)
  simp [encodedPair, hencoded]

/-- An encoded pair has no question mark. -/
theorem question_mark_not_mem (pair : Text × Leaf) : '?' ∉ encodedPair pair := by
  have hencoded := not_mem_percent_encode (c := '?') (by decide) (by decide)
  simp [encodedPair, hencoded]

/-- Joined texts have the characters of the texts and of the separator. -/
theorem not_mem_intercalate {c separator : Char} (hne : c ≠ separator) {texts : List Text}
    (h : ∀ text ∈ texts, c ∉ text) : c ∉ [separator].intercalate texts := by
  induction texts with
  | nil => simp [List.intercalate]
  | cons text texts ih =>
      have hfirst := h text List.mem_cons_self
      have hrest := ih fun other hother ↦ h other (List.mem_cons_of_mem _ hother)
      cases texts with
      | nil => simpa [List.intercalate_singleton] using hfirst
      | cons second texts =>
          rw [List.intercalate_cons_cons]
          simp [hfirst, hne, hrest]

/-- No question mark is taken from the front of a query. -/
theorem without_prefix_eq (options : ParseOptions) (pairs : List (Text × Leaf)) :
    withoutPrefix options (['&'].intercalate (pairs.map encodedPair)) =
      ['&'].intercalate (pairs.map encodedPair) := by
  have hnone : '?' ∉ ['&'].intercalate (pairs.map encodedPair) := by
    refine not_mem_intercalate (by decide) fun piece hpiece ↦ ?_
    obtain ⟨pair, -, rfl⟩ := List.mem_map.mp hpiece
    exact question_mark_not_mem pair
  unfold withoutPrefix
  split
  · rename_i text htext
    exact absurd (htext ▸ List.mem_cons_self) hnone
  · rfl

/-- The pieces of a query are its pairs. -/
theorem pieces_of_eq (pairs : List (Text × Leaf)) :
    piecesOf (['&'].intercalate (pairs.map encodedPair)) = pairs.map encodedPair := by
  cases pairs with
  | nil => rfl
  | cons pair pairs =>
      have hsplit : (['&'].intercalate ((pair :: pairs).map encodedPair)).splitOn '&' =
          (pair :: pairs).map encodedPair := by
        refine List.splitOn_intercalate '&' (fun piece hpiece ↦ ?_) (by simp)
        obtain ⟨source, -, rfl⟩ := List.mem_map.mp hpiece
        exact ampersand_not_mem source
      have hne : ['&'].intercalate ((pair :: pairs).map encodedPair) ≠ [] := by
        intro hnil
        rw [hnil] at hsplit
        simp [encodedPair] at hsplit
      rw [piecesOf, if_neg hne, hsplit]

/-- The key of an encoded pair stands before its first equality sign. -/
theorem split_encoded_pair (pair : Text × Leaf) :
    (encodedPair pair).takeWhile (· != '=') = percentEncode pair.1 ∧
      ((encodedPair pair).dropWhile (· != '=')).drop 1 = percentEncode pair.2.joined := by
  have hkey : ∀ c ∈ percentEncode pair.1, (c != '=') = true := by
    intro c hc
    have hequals := not_mem_percent_encode (c := '=') (by decide) (by decide) pair.1
    exact bne_iff_ne.mpr fun h ↦ hequals (h ▸ hc)
  rw [encodedPair, List.takeWhile_append_of_pos hkey, List.dropWhile_append_of_pos hkey]
  simp

/-! ## The round trip -/

/-- An encoded pair is received with its key decoded once more. -/
theorem decode_piece_encoded_pair {pair : Text × Leaf} (h : pair.2.CommaFree)
    {defaultDecoder : DefaultDecoder}
    (hdecoder : ∀ text type, defaultDecoder text .utf8 type = defaultDecode text) :
    decodePiece { decoder := queryDecoder, ignoreQueryPrefix := true } defaultDecoder
      (encodedPair pair) = some (defaultDecode pair.1, pair.2) := by
  obtain ⟨hkey, hvalue⟩ := split_encoded_pair pair
  simp only [decodePiece, hkey, hvalue, query_decoder_key, query_decoder_value h, hdecoder]
  rfl

/-- The encoded pairs are received with their keys decoded once more. -/
theorem map_decode_piece_encoded_pair {pairs : List (Text × Leaf)}
    (h : ∀ pair ∈ pairs, pair.2.CommaFree) {defaultDecoder : DefaultDecoder}
    (hdecoder : ∀ text type, defaultDecoder text .utf8 type = defaultDecode text) :
    (pairs.map encodedPair).mapM
      (decodePiece { decoder := queryDecoder, ignoreQueryPrefix := true } defaultDecoder) =
        some (pairs.map fun pair ↦ (defaultDecode pair.1, pair.2)) := by
  induction pairs with
  | nil => rfl
  | cons pair pairs ih =>
      have hpair := decode_piece_encoded_pair (h pair List.mem_cons_self) hdecoder
      have hrest := ih fun other hother ↦ h other (List.mem_cons_of_mem _ hother)
      rw [List.map_cons, List.mapM_cons, hpair, hrest]
      rfl

/-- What `parseQuery` makes of a query that `stringifyQuery` wrote. -/
theorem parse_query_stringify_query {qs : Qs} {rebuild : List (Text × Leaf) → QueryObject}
    {query : QueryObject} (hdocumented : Documented qs rebuild query)
    (hcommas : ∀ pair ∈ query.leaves, pair.2.CommaFree) :
    parseQuery qs (stringifyQuery qs query none) = some (rebuild query.receivedPairs) := by
  obtain ⟨defaultDecoder, hdecoder, hparse⟩ := hdocumented.parse_eq
  show qs.parse (qs.stringify query { arrayFormat := .comma, encode := true }) _ = _
  rw [hdocumented.stringify_eq, hparse, without_prefix_eq, pieces_of_eq,
    map_decode_piece_encoded_pair hcommas hdecoder]
  rfl

/-- Plain keys are received as they are. -/
theorem received_pairs_eq {query : QueryObject} (h : ∀ pair ∈ query.leaves, Plain pair.1) :
    query.receivedPairs = query.leaves := by
  have hpair : ∀ pair ∈ query.leaves, (defaultDecode pair.1, pair.2) = pair := by
    intro pair hpair
    rw [default_decode_eq (h pair hpair)]
  simpa [QueryObject.receivedPairs] using List.map_congr_left hpair

/-- Where each leaf has its full key among the received ones, the keys are plain: the heaviest key
that is not plain would be received from a heavier one. -/
theorem plain_of_received {query : QueryObject}
    (h : ∀ pair ∈ query.leaves, pair.1 ∈ query.receivedPairs.map Prod.fst) :
    ∀ pair ∈ query.leaves, Plain pair.1 := by
  let bads := (query.leaves.map Prod.fst).filter fun key ↦ ¬ Plain key
  have hbads : ∀ key, key ∈ bads ↔ key ∈ query.leaves.map Prod.fst ∧ ¬ Plain key := by
    intro key
    simp [bads, List.mem_filter]
  have hsource : ∀ key ∈ bads, ∃ source ∈ bads, weight key < weight source := by
    intro key hkey
    obtain ⟨hleaf, hnotPlain⟩ := (hbads key).mp hkey
    obtain ⟨pair, hpair, rfl⟩ := List.mem_map.mp hleaf
    obtain ⟨received, hreceived, hsame⟩ := List.mem_map.mp (h pair hpair)
    obtain ⟨sent, hsent, rfl⟩ := List.mem_map.mp hreceived
    have hdecoded : defaultDecode sent.1 = pair.1 := hsame
    have hsentBad : ¬ Plain sent.1 := by
      intro hplain
      rw [default_decode_eq hplain] at hdecoded
      exact hnotPlain (hdecoded ▸ hplain)
    have hlt := weight_default_decode_lt hsentBad
    rw [hdecoded] at hlt
    exact ⟨sent.1, (hbads _).mpr ⟨List.mem_map_of_mem hsent, hsentBad⟩, hlt⟩
  intro pair hpair
  by_contra hnotPlain
  have hbad : pair.1 ∈ bads := (hbads _).mpr ⟨List.mem_map_of_mem hpair, hnotPlain⟩
  obtain ⟨heaviest, hheaviest⟩ : ∃ heaviest, heaviest ∈ bads.argmax weight := by
    refine Option.ne_none_iff_exists'.mp fun hnone ↦ ?_
    rw [List.argmax_eq_none.mp hnone] at hbad
    simp at hbad
  obtain ⟨source, hmem, hlt⟩ := hsource heaviest (List.argmax_mem hheaviest)
  have hle := List.le_of_mem_argmax hmem hheaviest
  omega

/-- The server receives the query that the client sent exactly if each object below the top has a
member and each full key is plain. -/
theorem parse_query_stringify_query_eq_iff {qs : Qs} {rebuild : List (Text × Leaf) → QueryObject}
    {query : QueryObject} (hdocumented : Documented qs rebuild query)
    (hcommas : ∀ pair ∈ query.leaves, pair.2.CommaFree) :
    parseQuery qs (stringifyQuery qs query none) = some query ↔
      query.Full ∧ ∀ pair ∈ query.leaves, Plain pair.1 := by
  rw [parse_query_stringify_query hdocumented hcommas, Option.some_inj]
  constructor
  · intro hsame
    have hfull := hdocumented.rebuild_full
    rw [hsame] at hfull
    exact ⟨hfull, plain_of_received (hdocumented.rebuild_key hsame)⟩
  · intro ⟨hfull, hplain⟩
    rw [received_pairs_eq hplain]
    exact hdocumented.rebuild_leaves hfull

/-! ## A small `qs` -/

/-- The keys on the path that a full key spells. -/
def segmentsOf (key : Text) : List Text :=
  (key.splitOn '[').map fun segment ↦ segment.filter (· ≠ ']')

/-- Change the object under a key, or append one. -/
def QueryObject.modifyObject (key : Text) (change : QueryObject → QueryObject) :
    QueryObject → QueryObject
  | .nil => .object key (change .nil) .nil
  | .leaf other value rest => .leaf other value (rest.modifyObject key change)
  | .object other members rest =>
      if other = key then .object other (change members) rest
      else .object other members (rest.modifyObject key change)

/-- Append a leaf. -/
def QueryObject.appendLeaf (key : Text) (value : Leaf) : QueryObject → QueryObject
  | .nil => .leaf key value .nil
  | .leaf other otherValue rest => .leaf other otherValue (rest.appendLeaf key value)
  | .object other members rest => .object other members (rest.appendLeaf key value)

/-- Insert a leaf at the end of a path. -/
def insertLeaf (value : Leaf) : List Text → QueryObject → QueryObject
  | [], query => query
  | [key], query => query.appendLeaf key value
  | key :: next :: path, query => query.modifyObject key (insertLeaf value (next :: path))

/-- Rebuild an object from its leaves. -/
def rebuildBrackets (pairs : List (Text × Leaf)) : QueryObject :=
  pairs.foldl (fun query pair ↦ insertLeaf pair.2 (segmentsOf pair.1) query) .nil

/-- The part of `qs` that queries with comma arrays need. -/
def bracketQs : Qs where
  stringify query options := ['&'].intercalate (query.leaves.map fun pair ↦
    if options.encode then encodedPair pair else pair.1 ++ '=' :: pair.2.joined)
  parse text options := ((piecesOf (withoutPrefix options text)).mapM
    (decodePiece options fun item _ _ ↦ defaultDecode item)).map rebuildBrackets

/-- It behaves as documented on each query that it rebuilds. -/
theorem bracket_qs_documented {query : QueryObject}
    (hleaves : query.Full → rebuildBrackets query.leaves = query)
    (hfull : (rebuildBrackets query.receivedPairs).Full)
    (hkey : rebuildBrackets query.receivedPairs = query →
      ∀ pair ∈ query.leaves, pair.1 ∈ query.receivedPairs.map Prod.fst) :
    Documented bracketQs rebuildBrackets query where
  stringify_eq := rfl
  parse_eq := ⟨fun item _ _ ↦ defaultDecode item, fun _ _ ↦ rfl, fun _ ↦ rfl⟩
  rebuild_leaves := hleaves
  rebuild_full := hfull
  rebuild_key := hkey

/-- `filter: { age: { gt: "1+2%" }, "50%": ["a b", "c"] }, sort: "-age"`. -/
def ageQuery : QueryObject :=
  .object "filter".toList
    (.object "age".toList (.leaf "gt".toList (.text "1+2%".toList) .nil)
      (.leaf "50%".toList (.array ["a b".toList, "c".toList]) .nil))
    (.leaf "sort".toList (.text "-age".toList) .nil)

/-- The round trip of a query with nested filters. -/
theorem parse_query_stringify_query_age :
    parseQuery bracketQs (stringifyQuery bracketQs ageQuery none) = some ageQuery := by
  have hdocumented : Documented bracketQs rebuildBrackets ageQuery :=
    bracket_qs_documented (by decide) (by decide) (by decide)
  exact (parse_query_stringify_query_eq_iff hdocumented (by decide)).mpr ⟨by decide, by decide⟩

/-- `filter: { "a+b": "x" }`. -/
def plusQuery : QueryObject :=
  .object "filter".toList (.leaf "a+b".toList (.text "x".toList) .nil) .nil

/-- A plus sign in a key is received as a blank. -/
theorem parse_query_stringify_query_plus :
    Documented bracketQs rebuildBrackets plusQuery ∧
      (∀ pair ∈ plusQuery.leaves, pair.2.CommaFree) ∧
      parseQuery bracketQs (stringifyQuery bracketQs plusQuery none) =
        some (.object "filter".toList (.leaf "a b".toList (.text "x".toList) .nil) .nil) ∧
      parseQuery bracketQs (stringifyQuery bracketQs plusQuery none) ≠ some plusQuery := by
  refine ⟨bracket_qs_documented (by decide) (by decide) (by decide), by decide, by decide,
    by decide⟩

end CoreUtils.JsonApi
