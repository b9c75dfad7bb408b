import Mosaic.Document.Snippet
import Mosaic.Routing.Basic

/-!
# Requests at a position

A request at a position goes to the adapter for the region there, with the position made local,
and the ranges in its answer are brought back to the file (`Router.askAt`).  In host markup, in a
region without an adapter and when the adapter fails there is nothing to answer; completion alone
offers new blocks in host markup.
-/

namespace Mosaic

/-- The region at a position, both its ends included. -/
def Snapshot.regionUnder? (s : Snapshot) (p : Position) : Option Region :=
  s.regionAt? (s.offsetAt p)

namespace Router

/-- The region at a position of an open file, if the position is in one. -/
def activeRegion (r : Router) (uri : String) (p : Position) : Except Error (Option Region) := do
  return (← r.store.require uri).regionUnder? p

/-- What serves requests in a region. -/
def serviceFor? (r : Router) (file : Snapshot) (region : Region) : Option Service :=
  (r.adapters.get? region.language).map (⟨·, Embedded.forRequest file region⟩)

/-- Asks the adapter for the region at a position.  `locate` makes what is asked about local,
`toHost` brings the answer back to the file, and `nothing` is the answer if there is none. -/
def askAt {ι α β : Type} (r : Router) (uri : String) (p : Position) (nothing : β)
    (locate : Embedded → Option ι) (request : ι → Request)
    (ask : Adapter → Embedded → ι → Answer α) (toHost : Region → Embedded → α → Option β) :
    Routed β :=
  r.on uri fun file =>
    match file.regionUnder? p with
    | none => .pure nothing
    | some region =>
      match r.serviceFor? file region with
      | none => .pure nothing
      | some service =>
        match locate service.document with
        | none => .pure nothing
        | some place =>
          { calls := [service.call (request place)]
            result := match ask service.adapter service.document place with
              | .ok answer => sendable (toHost region service.document answer)
              | .error _ => .ok nothing }

/-- Completions at a position; in host markup these are the blocks that the file may still be
given. -/
def completion (r : Router) (uri : String) (p : Position) : Routed (Option CompletionList) :=
  r.on uri fun file =>
    match file.regionUnder? p with
    | none => .pure (some (file.blockSnippets r.store.scanOptions p))
    | some _ =>
      r.askAt uri p none (·.toLocal? p) .complete (·.complete)
        fun _ e => Option.mapM (CompletionList.translate e.rangeToHost?)

/-- What is shown for a position. -/
def hover (r : Router) (uri : String) (p : Position) : Routed (Option Hover) :=
  r.askAt uri p none (·.toLocal? p) .hover (·.hover)
    fun _ e => Option.mapM (Hover.translate e.rangeToHost?)

/-- Help with the arguments of a call at a position. -/
def signatureHelp (r : Router) (uri : String) (p : Position) : Routed (Option Json) :=
  r.askAt uri p none (·.toLocal? p) .signatureHelp (·.signatureHelp) fun _ _ => some

/-- Locations with those in the file itself brought back to it. -/
def locationsToHost (e : Embedded) (locations : List Location) : Option (List Location) :=
  locations.mapM (Location.translateIn e.uri e.rangeToHost?)

/-- The definitions of the symbol at a position. -/
def definition (r : Router) (uri : String) (p : Position) : Routed (List Location) :=
  r.askAt uri p [] (·.toLocal? p) .definition (·.definition) fun _ => locationsToHost

/-- The references to the symbol at a position. -/
def references (r : Router) (uri : String) (p : Position) : Routed (List Location) :=
  r.askAt uri p [] (·.toLocal? p) .references (·.references) fun _ => locationsToHost

/-- The occurrences of the symbol at a position. -/
def highlights (r : Router) (uri : String) (p : Position) : Routed (List Highlight) :=
  r.askAt uri p [] (·.toLocal? p) .highlights (·.highlights)
    fun _ e answer => answer.mapM (Highlight.translate e.rangeToHost?)

/-- The ways to write down a colour that stands in a range. -/
def colorPresentations (r : Router) (uri : String) (color : Color) (range : Range) :
    Routed (List ColorPresentation) :=
  r.askAt uri range.start [] (·.rangeToLocal? range) (.colorPresentations color)
    (fun a e place => a.colorPresentations e color place)
    fun _ e answer => answer.mapM (ColorPresentation.translate e.rangeToHost?)

end Router

end Mosaic
