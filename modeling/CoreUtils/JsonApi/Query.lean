import CoreUtils.Library.PercentEncoding

/-!
# JSON:API queries on the wire

`stringifyQuery` for clients and `parseQuery` for servers, after `stringifyQuery.ts` and
`parseQuery.ts`. Both hand the work to the `qs` package, which is a parameter here (`Qs`):
`stringifyQuery` only chooses options, and `parseQuery` also supplies the decoder that `qs` calls on
every key and on every value.
-/

namespace CoreUtils.JsonApi

/-- Text as its characters. -/
abbrev Text := List Char

/-- The value at the end of a path of keys: a text or an array of texts. -/
inductive Leaf where
  | text (value : Text)
  | array (values : List Text)
  deriving DecidableEq, Repr

/-- The members of a query object in order: under each key a leaf or another object. -/
inductive QueryObject where
  | nil
  | leaf (key : Text) (value : Leaf) (rest : QueryObject)
  | object (key : Text) (members : QueryObject) (rest : QueryObject)
  deriving DecidableEq, Repr

/-! ## The `qs` package -/

/-- What a decoder is asked to decode. -/
inductive DecoderType where
  | key
  | value
  deriving DecidableEq, Repr

/-- The character sets of `qs`. -/
inductive Charset where
  | utf8
  | iso88591
  deriving DecidableEq, Repr

/-- The decoder that comes with `qs`. -/
abbrev DefaultDecoder := Text → Charset → DecoderType → Text

/-- A decoder of the caller; nothing stands for an error that it throws. -/
abbrev Decoder := Text → DefaultDecoder → Charset → DecoderType → Option Leaf

/-- How `stringify` writes arrays. -/
inductive ArrayFormat where
  | indices
  | brackets
  | repeated
  | comma
  deriving DecidableEq, Repr

/-- The options of `stringify` that are set here. -/
structure StringifyOptions where
  arrayFormat : ArrayFormat
  encode : Bool
  deriving DecidableEq, Repr

/-- The options of `parse` that are set here. -/
structure ParseOptions where
  decoder : Decoder
  ignoreQueryPrefix : Bool

/-- The functions of the `qs` package that are used here. -/
structure Qs where
  stringify : QueryObject → StringifyOptions → Text
  parse : Text → ParseOptions → Option QueryObject

/-! ## The code -/

/-- `stringifyQuery`, with its `encode` option. -/
def stringifyQuery (qs : Qs) (query : QueryObject) (encode : Option Bool) : Text :=
  qs.stringify query { arrayFormat := .comma, encode := encode.getD true }

/-- The decoder of `parseQuery`. A key goes through the default decoder after it has been
decoded. -/
def queryDecoder : Decoder := fun item defaultDecoder charset type ↦ do
  let decoded ← PercentEncoding.decodeURIComponent item
  if type = .value then
    return if ',' ∈ decoded then .array (decoded.splitOn ',') else .text decoded
  else
    return .text (defaultDecoder decoded charset type)

/-- The object of a query, whose values are decoded and split at commas; a `?` in front is left out.
There is none if the library fails. -/
def parseQuery (qs : Qs) (query : Text) : Option QueryObject :=
  qs.parse query { decoder := queryDecoder, ignoreQueryPrefix := true }

/-! ## What the package does -/

/-- A key below a path, in brackets unless it is at the top. -/
def fullKey (path : Option Text) (key : Text) : Text :=
  match path with
  | none => key
  | some path => path ++ '[' :: key ++ [']']

/-- The leaves of an object below a path, each under its full key. -/
def QueryObject.leavesBelow (path : Option Text) : QueryObject → List (Text × Leaf)
  | .nil => []
  | .leaf key value rest => (fullKey path key, value) :: rest.leavesBelow path
  | .object key members rest =>
      members.leavesBelow (some (fullKey path key)) ++ rest.leavesBelow path

/-- The leaves of a query, each under its full key. -/
def QueryObject.leaves (query : QueryObject) : List (Text × Leaf) := query.leavesBelow none

/-- Every object below the top has a member. -/
def QueryObject.Full : QueryObject → Prop
  | .nil => True
  | .leaf _ _ rest => rest.Full
  | .object _ members rest => members ≠ .nil ∧ members.Full ∧ rest.Full

/-- Fullness is decided along the members. -/
def QueryObject.decideFull : (query : QueryObject) → Decidable query.Full
  | .nil => .isTrue trivial
  | .leaf _ _ rest => rest.decideFull
  | .object _ members rest =>
      @instDecidableAnd _ _ inferInstance (@instDecidableAnd _ _ members.decideFull rest.decideFull)

instance (query : QueryObject) : Decidable query.Full := query.decideFull

/-- The text of a leaf with arrays joined by commas. -/
def Leaf.joined : Leaf → Text
  | .text value => value
  | .array values => [','].intercalate values

/-- A leaf on the wire: the full key and the joined value, each encoded once. -/
def encodedPair (pair : Text × Leaf) : Text :=
  PercentEncoding.percentEncode pair.1 ++ '=' :: PercentEncoding.percentEncode pair.2.joined

/-- The pieces of a query text. -/
def piecesOf (text : Text) : List Text := if text = [] then [] else text.splitOn '&'

/-- A query text without the question mark in front, where it is to be ignored. -/
def withoutPrefix (options : ParseOptions) : Text → Text
  | '?' :: text => if options.ignoreQueryPrefix then text else '?' :: text
  | text => text

/-- Decode a piece: what stands before the first equality sign is its key. -/
def decodePiece (options : ParseOptions) (defaultDecoder : DefaultDecoder) (piece : Text) :
    Option (Text × Leaf) := do
  let key ← options.decoder (piece.takeWhile (· != '=')) defaultDecoder .utf8 .key
  let value ← options.decoder ((piece.dropWhile (· != '=')).drop 1) defaultDecoder .utf8 .value
  return (key.joined, value)

/-- Plus signs as blanks. -/
def plusToSpace (text : Text) : Text := text.map fun c ↦ if c = '+' then ' ' else c

/-- The default decoder on UTF-8: plus signs are blanks, then percent escapes are decoded unless
they are malformed. -/
def defaultDecode (text : Text) : Text :=
  (PercentEncoding.decodeURIComponent (plusToSpace text)).getD (plusToSpace text)

/-- The pairs that `parseQuery` hands to the rebuilding of a query that `stringifyQuery` wrote. -/
def QueryObject.receivedPairs (query : QueryObject) : List (Text × Leaf) :=
  query.leaves.map fun pair ↦ (defaultDecode pair.1, pair.2)

/-- The documented behaviour of `qs` on a query, `rebuild` being how it makes objects from pairs of
full keys and values: `stringify` with comma arrays encodes each full key and each joined value
once, `parse` splits at ampersands and at the first equality sign and decodes each key and each
value once. Rebuilding the leaves of a query whose objects all have members gives the query back.
Objects are only made for pairs, so that none below the top is empty, and where the received pairs
do make up the query, each of its leaves is there through a pair with the leaf's full key. -/
structure Documented (qs : Qs) (rebuild : List (Text × Leaf) → QueryObject)
    (query : QueryObject) : Prop where
  stringify_eq : qs.stringify query { arrayFormat := .comma, encode := true } =
    ['&'].intercalate (query.leaves.map encodedPair)
  parse_eq : ∃ defaultDecoder : DefaultDecoder,
    (∀ text type, defaultDecoder text .utf8 type = defaultDecode text) ∧
    ∀ options, qs.parse (['&'].intercalate (query.leaves.map encodedPair)) options =
      ((piecesOf (withoutPrefix options (['&'].intercalate (query.leaves.map encodedPair)))).mapM
        (decodePiece options defaultDecoder)).map rebuild
  rebuild_leaves : query.Full → rebuild query.leaves = query
  rebuild_full : (rebuild query.receivedPairs).Full
  rebuild_key : rebuild query.receivedPairs = query →
    ∀ pair ∈ query.leaves, pair.1 ∈ query.receivedPairs.map Prod.fst

end CoreUtils.JsonApi
