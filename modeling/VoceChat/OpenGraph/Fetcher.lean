import Mathlib.Data.List.Forall2
import VoceChat.Foundations.Blocks
import VoceChat.Foundations.Decimal
import VoceChat.Foundations.Guards
import VoceChat.Foundations.JsonText

/-!
# Open Graph objects of pages (`crates/open-graph/src/fetcher.rs`)

The elements of a page are gone through in the order of the document. What they say is collected
with two keys, which for a property are the first two parts of its name after `og:`, and then put
together to an object. An image begins with a property `og:image`, and the structured properties up
to the next one are about it; audios and videos alike. A structured property before the first image
begins one too, with its own content as the url.

The name of a property is cut at its number of characters, counted in bytes. In ASCII that is the
end, and the whole name is used (`getUnchecked_eq`); in other names it can be inside of a character,
which is undefined behaviour. A page that was parsed as HTML has no processing instruction, where
`do_walk` panics.
-/

namespace VoceChat

open Decimal Guards JsonText

namespace OpenGraph

/-! ### Pages -/

inductive NodeData where
  | document
  | doctype
  | text (contents : String)
  | comment
  | element (name : String) (attrs : List (String × String))
  | processingInstruction
  deriving DecidableEq

/-- A node of a page, with its children. -/
inductive Handle where
  | node (data : NodeData) (children : List Handle)

def Handle.data : Handle → NodeData
  | node data _ => data

/-! ### Objects -/

structure Image where
  type : Option String := none
  url : String
  secureUrl : Option String := none
  width : Option ℤ := none
  height : Option ℤ := none
  alt : Option String := none
  deriving DecidableEq

structure Audio where
  type : Option String := none
  url : String
  secureUrl : Option String := none
  deriving DecidableEq

structure Video where
  type : Option String := none
  url : String
  secureUrl : Option String := none
  width : Option ℤ := none
  height : Option ℤ := none
  deriving DecidableEq

structure Object where
  type : String := ""
  title : String := ""
  url : String := ""
  images : List Image := []
  audios : List Audio := []
  videos : List Video := []
  faviconUrl : Option String := none
  description : Option String := none
  locale : Option String := none
  localeAlternate : Option (List String) := none
  siteName : Option String := none
  deriving DecidableEq

/-- `parse::<i32>`. -/
def parseI32 (value : String) : Option ℤ :=
  match value.toList with
  | [] => none
  | c :: cs =>
    if c = '-' then
      if cs = [] then none else (parseDigits (2 ^ 31 + 1) 0 cs).map fun n ↦ -(n : ℤ)
    else (parseUnsigned (2 ^ 31) value).map fun n ↦ (n : ℤ)

/-- A property of an image, an audio or a video: its second key, and its content. -/
abbrev Structured := String × String

/-- There is no second key. -/
def opensObject (e : Structured) : Bool := e.1 = ""

def Image.set (e : Structured) (v : Image) : Image :=
  if e.1 = "width" then { v with width := parseI32 e.2 }
  else if e.1 = "height" then { v with height := parseI32 e.2 }
  else if e.1 = "secure_url" then { v with secureUrl := some e.2 }
  else if e.1 = "alt" then { v with alt := some e.2 }
  else if e.1 = "type" then { v with type := some e.2 }
  else v

def Audio.set (e : Structured) (v : Audio) : Audio :=
  if e.1 = "secure_url" then { v with secureUrl := some e.2 }
  else if e.1 = "type" then { v with type := some e.2 }
  else v

def Video.set (e : Structured) (v : Video) : Video :=
  if e.1 = "height" then { v with height := parseI32 e.2 }
  else if e.1 = "width" then { v with width := parseI32 e.2 }
  else if e.1 = "secure_url" then { v with secureUrl := some e.2 }
  else if e.1 = "type" then { v with type := some e.2 }
  else v

def placeImage : List Image → Structured → List Image :=
  Blocks.place opensObject (fun e ↦ { url := e.2 }) Image.set

def placeAudio : List Audio → Structured → List Audio :=
  Blocks.place opensObject (fun e ↦ { url := e.2 }) Audio.set

def placeVideo : List Video → Structured → List Video :=
  Blocks.place opensObject (fun e ↦ { url := e.2 }) Video.set

/-- What is collected: two keys, and a value. -/
structure Tag where
  key0 : String
  key1 : String
  value : String
  deriving DecidableEq

def Tag.structured (t : Tag) : Structured := (t.key1, t.value)

/-- One round of the loop in `walk`. -/
def Object.put (obj : Object) (t : Tag) : Object :=
  if t.key0 = "title" then if t.value ≠ "" then { obj with title := t.value } else obj
  else if t.key0 = "type" then { obj with type := t.value }
  else if t.key0 = "url" then { obj with url := t.value }
  else if t.key0 = "favicon_url" then { obj with faviconUrl := some t.value }
  else if t.key0 = "description" then
    if t.value ≠ "" then { obj with description := some t.value } else obj
  else if t.key0 = "locale" then { obj with locale := some t.value }
  else if t.key0 = "locale_alternate" then
    -- nothing ever makes this a list
    { obj with localeAlternate := obj.localeAlternate.map (· ++ [t.value]) }
  else if t.key0 = "site_name" then { obj with siteName := some t.value }
  else if t.key0 = "image" then { obj with images := placeImage obj.images t.structured }
  else if t.key0 = "audio" then { obj with audios := placeAudio obj.audios t.structured }
  else if t.key0 = "video" then { obj with videos := placeVideo obj.videos t.structured }
  else obj

/-! ### Going through a page -/

/-- The crate `url`. -/
structure Urls (Url : Type) where
  parse : String → Option Url
  join : Url → String → Option String

inductive WalkError where
  /-- `Error::UrlParseError`. -/
  | url
  /-- A slice that ends inside of a character. -/
  | notBoundary
  /-- `unreachable!`. -/
  | unreachable
  deriving DecidableEq, Repr

def startsWith (start s : String) : Bool := start.toList.isPrefixOf s.toList

def attrValue (attrName : String) (attrs : List (String × String)) : Option String :=
  (attrs.find? fun attr ↦ attr.1 = attrName).map Prod.snd

/-- `inner_text`, of the children. -/
def innerText : List Handle → Option String
  | .node (.text contents) _ :: _ => some contents
  | _ => none

/-- `get_unchecked(lo..hi)`. -/
def getUnchecked (v : String) (lo hi : ℕ) : Option String :=
  Machine.fromUtf8 (((utf8 v.toList).take hi).drop lo)

/-- `split(':')`. -/
def splitColons (key : String) : List String := (key.toList.splitOn ':').map String.ofList

/-- `key0`, of the parts of a key. -/
def key0 (key : String) : String := (splitColons key).headD ""

/-- `key1`. -/
def key1 (key : String) : String := (splitColons key).tail.headD ""

/-- The url of an image, an audio or a video is to be resolved, unless it is absolute. -/
def isRelative (key0 key1 content : String) : Bool :=
  (key0 = "image" || key0 = "video" || key0 = "audio") && key1 = "" && !startsWith "http" content

section

variable {Url : Type} (urls : Urls Url)

def visitDescription (attrs : List (String × String)) (tags : List Tag) : List Tag :=
  if attrValue "name" attrs = some "description" then
    match attrValue "content" attrs with
    | some content => tags ++ [⟨"description", "", content⟩]
    | none => tags
  else tags

def visitProperty (absPath : Url) (attrs : List (String × String)) (tags : List Tag) :
    Except WalkError (List Tag) :=
  match attrValue "property" attrs with
  | none => .ok tags
  | some v =>
    if startsWith "og:" v then do
      let key ← okOr (getUnchecked v 3 v.toList.length) .notBoundary
      match attrValue "content" attrs with
      | none => return tags
      | some content =>
        let value ← if isRelative (key0 key) (key1 key) content then
            okOr (urls.join absPath content) .url
          else .ok content
        return tags ++ [⟨key0 key, key1 key, value⟩]
    else .ok tags

def visitLink (absPath : Url) (attrs : List (String × String)) (tags : List Tag) :
    Except WalkError (List Tag) :=
  match attrValue "rel" attrs with
  | none => .ok tags
  | some rel =>
    if "icon".toList.isSuffixOf rel.toList then
      match attrValue "href" attrs with
      | none => .ok tags
      | some href => do
        let value ← okOr (urls.join absPath href) .url
        return tags ++ [⟨"favicon_url", "", value⟩]
    else .ok tags

/-- What `do_walk` does with a node, before it goes through the children. -/
def visit (absPath : Url) (data : NodeData) (children : List Handle) (tags : List Tag) :
    Except WalkError (List Tag) :=
  match data with
  | .document | .doctype | .text _ | .comment => .ok tags
  | .element name attrs =>
    if name = "meta" then visitProperty urls absPath attrs (visitDescription attrs tags)
    else if name = "title" then .ok (tags ++ [⟨"title", "", (innerText children).getD ""⟩])
    else if name = "link" then visitLink urls absPath attrs tags
    else .ok tags
  | .processingInstruction => .error .unreachable

mutual

/-- `do_walk`. -/
def doWalk (url : String) : Handle → List Tag → Except WalkError (List Tag)
  | .node data children, tags => do
    let absPath ← okOr (urls.parse url) .url
    let tags ← visit urls absPath data children tags
    doWalkAll url children tags

def doWalkAll (url : String) : List Handle → List Tag → Except WalkError (List Tag)
  | [], tags => .ok tags
  | child :: children, tags => do
    let tags ← doWalk url child tags
    doWalkAll url children tags

end

/-- `walk`. -/
def walk (handle : Handle) (url : String) : Except WalkError Object := do
  let tags ← doWalk urls url handle []
  return tags.foldl Object.put {}

end

end OpenGraph

end VoceChat
