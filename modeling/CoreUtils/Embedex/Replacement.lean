import CoreUtils.Embedex.Tags
import CoreUtils.Library.ObjectLiteral
import CoreUtils.Library.ReplaceAll

/-!
# The block that replaces a tag

`createReplacement` renders the text of a source as a block: the tag, a code fence unless the
source is Markdown, and the prefix of the tag in front of every line. `processDestination` finds
the tags of a destination and replaces them one distinct text after another.
-/

namespace CoreUtils.Embedex

/-- What marks a file as a source, at its beginning. -/
def sourceMarkerPrefix : Text := "// embedex: ".toList

/-- The first line of a text. -/
def firstLine (content : Text) : Text := content.takeWhile (· ≠ '\n')

/-- The text below the first line. -/
def otherLines (content : Text) : Text := (content.dropWhile (· ≠ '\n')).tail

/-- Whether the first line is a source marker. -/
def hasSourceMarker (content : Text) : Bool := sourceMarkerPrefix.isPrefixOf (firstLine content)

/-- Remove the source marker line if there is one. -/
def stripSourceMarker (content : Text) : Text :=
  if hasSourceMarker content then otherLines content else content

/-- Turn CRLF into LF. -/
def normalizeNewlines (content : Text) : Text := replaceAll ['\r', '\n'] ['\n'] content

/-! ## Code fences -/

/-- The code fence identifiers by file extension. -/
def codeFenceIdByFileExtension : List (String × String) :=
  [("cjs", "js"), ("cts", "ts"), ("js", "js"), ("jsx", "js"), ("md", ""), ("mdx", ""),
    ("mjs", "js"), ("mts", "ts"), ("ts", "ts"), ("tsx", "ts")]

/-- The property of the table of code fence identifiers with this name. -/
def codeFenceIdOf (extension : Text) : Option Text :=
  ((codeFenceIdByFileExtension ++ inheritedProperties).find? fun entry ↦
    entry.1.toList == extension).map fun entry ↦ entry.2.toList

/-- The extension of a path without its dot: `path.extname(sourcePath).slice(1)`. -/
def extensionOf (sourcePath : Text) : Text :=
  let base := (sourcePath.rdropWhile (· == '/')).rtakeWhile (· != '/')
  let extension := base.rtakeWhile (· != '.')
  -- a dot at the start of a name starts no extension
  if base = ['.', '.'] ∨ '.' ∉ base ∨ extension.length + 1 = base.length then [] else extension

/-! ## Blocks -/

/-- Put a character in front of the first line. -/
def consLine (c : Char) : List Text → List Text
  | [] => [[c]]
  | line :: rest => (c :: line) :: rest

/-- `split(/\r?\n/)`. -/
def splitLines : Text → List Text
  | [] => [[]]
  | '\r' :: '\n' :: s => [] :: splitLines s
  | '\n' :: s => [] :: splitLines s
  | c :: s => consLine c (splitLines s)

/-- `join("\n")`. -/
def joinLines (lines : List Text) : Text := ['\n'].intercalate lines

/-- A line of white space. -/
def isBlank (line : Text) : Bool := Text.trim Text.isWhiteSpace line == []

/-- What the content of a nested tag is replaced by: its lines without the blank ones at either
end. -/
def nestedContent (content : Text) : Text :=
  joinLines (((splitLines content).dropWhile isBlank).rdropWhile isBlank)

/-- Replace nested tags by their contents. -/
def stripNestedTags (content : Text) : Text :=
  (segments content).flatMap fun
    | .char c => [c]
    | .tag parts => nestedContent parts.content

/-- Whether the prefix of a tag starts like a line of a comment block: white space and a star. -/
def isInCommentBlock (blockPrefix : Text) : Bool :=
  (blockPrefix.dropWhile Text.isWhiteSpace).head? == some '*'

/-- Three backticks. -/
def codeFence : Text := List.replicate 3 backtick

/-- The text of a source as it is put into a block. -/
def processContent (content blockPrefix : Text) (codeFenceId : Option Text) : Text :=
  let trimmed := Text.trimEnd Text.isWhiteSpace content
  let escaped :=
    if isInCommentBlock blockPrefix then replaceAll "*/".toList "*\\/".toList trimmed else trimmed
  if codeFenceId = some [] then Text.trim Text.isWhiteSpace (stripNestedTags escaped) else escaped

/-- The lines of a block. -/
def blockLines (content sourcePath blockPrefix : Text) : List Text :=
  let backticks := if codeFence <:+: content then backtick :: codeFence else codeFence
  let codeFenceId := codeFenceIdOf (extensionOf sourcePath)
  let contentLines := splitLines (processContent content blockPrefix codeFenceId)
  let body :=
    if codeFenceId = some [] then contentLines
    else (backticks ++ codeFenceId.getD []) :: contentLines ++ [backticks]
  (openTag ++ (sourcePath ++ openTagEnd)) :: [] :: body ++ [[], closeTag]

/-- The block for a source at a tag with this prefix. -/
def createReplacement (content sourcePath blockPrefix : Text) : Text :=
  joinLines ((blockLines content sourcePath blockPrefix).map fun line ↦
    Text.trimEnd Text.isWhiteSpace (blockPrefix ++ line))

/-! ## Destinations -/

/-- The result for a destination. -/
inductive Embed where
  | noMatch (destination : ResolvedPath)
  | noChange (destination : ResolvedPath) (sources : List ResolvedPath)
  | update (destination : ResolvedPath) (sources : List ResolvedPath) (updatedContent : Text)
  | invalidSource (destination : ResolvedPath) (invalidSources : List ResolvedPath)
  | unreferencedSource (destination : ResolvedPath) (unreferencedSources : List ResolvedPath)
  | circularDependency (destination : ResolvedPath) (cycle : List ResolvedPath)
  deriving DecidableEq

/-- The contents of the destinations that have been updated. -/
abbrev UpdatedContentMap := OrderedMap ResolvedPath Text

/-- The content of a destination that tags are looked for in. -/
def destinationContent (updatedContentMap : UpdatedContentMap)
    (entry : ResolvedPath × Destination) : Text :=
  normalizeNewlines <|
    match updatedContentMap.get entry.1 with
    | some updated => stripSourceMarker updated
    | none => entry.2.content

section

variable (resolve : Text → ResolvedPath) (sourceMap : SourceMap)
  (updatedContentMap : UpdatedContentMap)

/-- The text of a source, which may have been updated as a destination; it is an error if there is
no such source. -/
def sourceContent (sourcePath : Text) : Option Text :=
  match updatedContentMap.get (resolve sourcePath) with
  | some updated => some (normalizeNewlines (stripSourceMarker updated))
  | none => (sourceMap.get (resolve sourcePath)).map fun source ↦ normalizeNewlines source.content

/-- The block for a tag. -/
def renderTag (parts : TagParts) : Option Text :=
  (sourceContent resolve sourceMap updatedContentMap parts.source).map fun content ↦
    createReplacement content parts.source parts.blockPrefix

/-- One match for each distinct text, in the order of their first occurrences. -/
def uniqueMatches (tags : List TagParts) : List TagParts :=
  (tags.foldl (fun found parts ↦ found.set parts.fullMatch parts)
    (OrderedMap.empty : OrderedMap Text TagParts)).values

/-- Replace the texts of matches by their blocks, one after another. -/
def replaceMatches : List TagParts → Text → Option Text
  | [], updatedContent => some updatedContent
  | parts :: rest, updatedContent =>
      match renderTag resolve sourceMap updatedContentMap parts with
      | none => none
      | some block => replaceMatches rest (replaceAll parts.fullMatch block updatedContent)

/-- Process a destination; there is no result when an error is thrown. -/
def processDestination (entry : ResolvedPath × Destination) : Option Embed :=
  let destination := entry.1
  let sources := entry.2.sources
  let content := destinationContent updatedContentMap entry
  let allEmbedexTags := tagsOf content
  let absoluteSourcePaths := allEmbedexTags.map fun parts ↦ resolve parts.source
  let invalidSources := absoluteSourcePaths.filter fun path ↦ !sources.has path
  if invalidSources ≠ [] then some (.invalidSource destination invalidSources)
  else
    let unreferencedSources := sources.keys.filter (· ∉ absoluteSourcePaths)
    if unreferencedSources ≠ [] then some (.unreferencedSource destination unreferencedSources)
    else
      let found := allEmbedexTags.filter fun parts ↦ sources.has (resolve parts.source)
      if found = [] then some (.noMatch destination)
      else
        let unique := uniqueMatches found
        (replaceMatches resolve sourceMap updatedContentMap unique content).map fun updated ↦
          let paths := unique.map fun parts ↦ resolve parts.source
          if content = updated then .noChange destination paths
          else .update destination paths updated

end

end CoreUtils.Embedex
