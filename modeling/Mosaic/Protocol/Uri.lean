import Mosaic.Json.Format

/-!
# URIs

URIs are texts that are the same when they are equal.  Two things are read off them: whether they
are absolute, and to which path in the file system they lead (`Uri.filePath?`).
-/

namespace Mosaic.Uri

/-- What a URI says after its scheme and the colon.  A scheme is a letter, and then letters,
digits, `+`, `-` and `.`. -/
def afterScheme? (uri : Text) : Option Text :=
  let scheme := uri.takeWhile fun c => c.isAlphanum || c == '+' || c == '-' || c == '.'
  match uri.drop scheme.length with
  | ':' :: rest => if scheme.head?.any Char.isAlpha then some rest else none
  | _ => none

/-- Whether a text is an absolute URI, as far as its scheme goes. -/
def isAbsolute (uri : String) : Bool :=
  (afterScheme? uri.toList).isSome

/-- The bytes of a text in which `%` and two hexadecimal digits stand for one byte. -/
def decodedBytes : Text → List UInt8
  | [] => []
  | '%' :: a :: b :: r =>
    match Digits.hex? a, Digits.hex? b with
    | some m, some n => UInt8.ofNat (m * 16 + n) :: decodedBytes r
    | _, _ => '%'.toString.toUTF8.toList ++ decodedBytes (a :: b :: r)
  | c :: r => c.toString.toUTF8.toList ++ decodedBytes r

/-- A text in which `%` and two hexadecimal digits stand for one byte. -/
def decode? (t : Text) : Option String :=
  String.fromUTF8? ⟨(decodedBytes t).toArray⟩

/-- The path to which a URI leads: the names on the way from the root.  It leads nowhere if it
has no path, or names another host. -/
def filePath? (uri : String) : Option (List String) := do
  let rest ← afterScheme? uri.toList
  let path ← match rest with
    | '/' :: '/' :: r =>
      let host := r.takeWhile (· != '/')
      if host.isEmpty ∨ host = "localhost".toList then some (r.drop host.length) else none
    | '/' :: _ => some rest
    | _ => none
  let path := path.takeWhile fun c => c != '?' && c != '#'
  ((path.splitOnP (· == '/')).filter (!·.isEmpty)).mapM decode?

end Mosaic.Uri
