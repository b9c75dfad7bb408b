import Mosaic.Text.Blank

/-!
# Markup tokens

The parts of markup that matter for finding embedded code: tag names, attribute names and
values, the ends of tags, and the raw content of `<style>` and `<script>` elements.  Everything
else, text and comments included, is `Kind.other`.  A token knows where it starts and carries
its text, so a stretch of tokens can be read without the text they came from.
-/

namespace Mosaic.Markup

/-- What a token is. -/
inductive Kind where
  /-- The name in a start tag. -/
  | startTag
  | attributeName
  /-- The value of an attribute, with its quotes. -/
  | attributeValue
  /-- The `>` that ends a start tag. -/
  | startTagClose
  /-- The `/>` that ends a start tag. -/
  | startTagSelfClose
  /-- The name in an end tag, whose `</` stands just before the token. -/
  | endTag
  /-- The `>` that ends an end tag. -/
  | endTagClose
  /-- The content of a `<style>` element. -/
  | styles
  /-- The content of a `<script>` element. -/
  | script
  /-- Text, comments, and what is not recognised. -/
  | other
  deriving DecidableEq, Repr

/-- A piece of markup: its kind, the byte offset where it starts, and its text. -/
structure Token where
  kind : Kind
  start : Nat
  text : Text
  deriving DecidableEq, Repr

/-- The byte offset where a token ends. -/
def Token.stop (t : Token) : Nat :=
  t.start + Text.bytes t.text

/-! ## Classes of characters -/

/-- An ASCII letter, with which a tag name has to start. -/
def isTagInitial (c : Char) : Bool :=
  c.isAlpha

/-- The characters of a tag name. -/
def isNameChar (c : Char) : Bool :=
  c.isAlphanum || c == '-' || c == '_' || c == ':' || c == '.'

/-- The characters of an attribute name: all but white space, quotes and `/ > = <`. -/
def isAttributeNameChar (c : Char) : Bool :=
  !isMarkupBlank c && !(['/', '>', '=', '"', '\'', '<'].contains c)

/-- The characters of an attribute value without quotes. -/
def isBareValueChar (c : Char) : Bool :=
  !isMarkupBlank c && c != '>'

/-- What may stand in an end tag after its name. -/
def isStrayChar (c : Char) : Bool :=
  c != '>' && c != '<'

/-- Whether a text starts like a tag, an end tag, a comment or a declaration. -/
def opensMarkup : Text → Bool
  | '<' :: c :: _ => isTagInitial c || c == '/' || c == '!'
  | _ => false

end Mosaic.Markup
