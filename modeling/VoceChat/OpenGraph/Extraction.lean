import VoceChat.OpenGraph.Fetcher

/-!
# What an Open Graph object shows of a page

`Handle.ogProperties` lists the properties of a page whose names begin with `og:`, in the order of
the document, each with the rest of its name and its content. Going through a page collects a tag
for each of them, whose keys are the first two parts of the rest (`Collects`, `collects_doWalk`),
and the images, audios and videos are put together from those, block by block (`Shows`).

So nothing is an image, an audio or a video but what a block of such properties says
(`walk_laws`).
-/

namespace VoceChat

open Guards JsonText

namespace OpenGraph

/-! ### The properties of a page -/

/-- The rest of the name and the content, of an element that has an Open Graph property. -/
def ogProperty (attrs : List (String × String)) : Option (String × String) :=
  (attrValue "property" attrs).bind fun v ↦
    if startsWith "og:" v then
      (attrValue "content" attrs).map (Prod.mk (String.ofList (v.toList.drop 3)))
    else none

def NodeData.ogProperties : NodeData → List (String × String)
  | .element name attrs => if name = "meta" then (ogProperty attrs).toList else []
  | .document | .doctype | .text _ | .comment | .processingInstruction => []

mutual

/-- In the order of the document. -/
def Handle.ogProperties : Handle → List (String × String)
  | .node data children => data.ogProperties ++ ogPropertiesAll children

def ogPropertiesAll : List Handle → List (String × String)
  | [] => []
  | child :: children => child.ogProperties ++ ogPropertiesAll children

end

/-- The names of Open Graph properties are ASCII. -/
def NodeData.Ascii : NodeData → Prop
  | .element _ attrs => ∀ v, attrValue "property" attrs = some v → startsWith "og:" v = true →
      ∀ c ∈ v.toList, c.toNat < 128
  | .document | .doctype | .text _ | .comment | .processingInstruction => True

mutual

/-- There is no processing instruction, as in all that was parsed as HTML, and the names of Open
Graph properties are ASCII. -/
def Handle.Plain : Handle → Prop
  | .node data children => data ≠ .processingInstruction ∧ data.Ascii ∧ PlainAll children

def PlainAll : List Handle → Prop
  | [] => True
  | child :: children => child.Plain ∧ PlainAll children

end

variable {Url : Type} {urls : Urls Url} {absPath : Url}

/-- What a tag has of a property: the first two parts of the name, and the content, which is
resolved if it is the url of an image, an audio or a video. -/
structure TagOf (urls : Urls Url) (absPath : Url) (p : String × String) (t : Tag) : Prop where
  key0 : t.key0 = key0 p.1
  key1 : t.key1 = key1 p.1
  value : if isRelative t.key0 t.key1 p.2 then urls.join absPath p.2 = some t.value
    else t.value = p.2

/-- The keys of images, audios and videos, which no other element gives. -/
def isMedia (key : String) : Bool := key = "image" || key = "audio" || key = "video"

/-- The tags have those of the properties, and no other of images, audios and videos. -/
def Collects (urls : Urls Url) (absPath : Url) (props : List (String × String)) (tags : List Tag) :
    Prop :=
  ∃ ogTags, List.Sublist ogTags tags ∧ List.Forall₂ (TagOf urls absPath) props ogTags ∧
    ∀ k, isMedia k = true → tags.filter (fun t ↦ t.key0 = k) = ogTags.filter fun t ↦ t.key0 = k

theorem Collects.nil : Collects urls absPath [] [] :=
  ⟨[], List.Sublist.refl _, .nil, fun _ _ ↦ rfl⟩

theorem Collects.append {props props' : List (String × String)} {tags tags' : List Tag}
    (h : Collects urls absPath props tags) (h' : Collects urls absPath props' tags') :
    Collects urls absPath (props ++ props') (tags ++ tags') := by
  obtain ⟨ogTags, hsub, hall, hfilter⟩ := h
  obtain ⟨ogTags', hsub', hall', hfilter'⟩ := h'
  refine ⟨ogTags ++ ogTags', hsub.append hsub', List.rel_append hall hall', fun k hk ↦ ?_⟩
  rw [List.filter_append, List.filter_append, hfilter k hk, hfilter' k hk]

/-- A tag of another element. -/
theorem Collects.other {t : Tag} (h : isMedia t.key0 = false) : Collects urls absPath [] [t] := by
  refine ⟨[], List.nil_sublist _, .nil, fun k hk ↦ ?_⟩
  have hne : t.key0 ≠ k := by
    rintro rfl
    rw [hk] at h
    cases h
  rw [List.filter_cons, if_neg fun heq ↦ hne (of_decide_eq_true heq)]

theorem Collects.property {p : String × String} {t : Tag} (h : TagOf urls absPath p t) :
    Collects urls absPath [p] [t] :=
  ⟨[t], List.Sublist.refl _, .cons h .nil, fun _ _ ↦ rfl⟩

/-! ### Names in ASCII -/

theorem startsWith_iff {start s : String} :
    startsWith start s = true ↔ start.toList <+: s.toList := List.isPrefixOf_iff_prefix

/-- Names that are ASCII are cut where they end. -/
theorem getUnchecked_eq {v : String} (hascii : ∀ c ∈ v.toList, c.toNat < 128) :
    getUnchecked v 3 v.toList.length = some (String.ofList (v.toList.drop 3)) := by
  have hrest : ∀ c ∈ v.toList.drop 3, c.toNat < 128 := fun c hc ↦ hascii c (List.mem_of_mem_drop hc)
  have hlength : (utf8 v.toList).length = v.toList.length := by
    rw [utf8_of_ascii hascii, JsonText.ascii, List.length_map]
  have hdrop : (utf8 v.toList).drop 3 = utf8 (v.toList.drop 3) := by
    rw [utf8_of_ascii hascii, utf8_of_ascii hrest, JsonText.ascii, JsonText.ascii, List.map_drop]
  rw [getUnchecked, ← hlength, List.take_length, hdrop, fromUtf8_utf8]

/-! ### Going through a page -/

variable {attrs : List (String × String)} {tags tags' : List Tag}

theorem collects_visitDescription : ∃ pushed, visitDescription attrs tags = tags ++ pushed ∧
    Collects urls absPath [] pushed := by
  unfold visitDescription
  split
  · split
    · exact ⟨_, rfl, .other rfl⟩
    · exact ⟨[], (List.append_nil _).symm, .nil⟩
  · exact ⟨[], (List.append_nil _).symm, .nil⟩

/-- The tag of a property is pushed. -/
def pushProperty (urls : Urls Url) (absPath : Url) (tags : List Tag) (p : String × String) :
    Except WalkError (List Tag) := do
  let value ← if isRelative (key0 p.1) (key1 p.1) p.2 then okOr (urls.join absPath p.2) .url
    else .ok p.2
  return tags ++ [⟨key0 p.1, key1 p.1, value⟩]

/-- The names are all cut where they end. -/
theorem visitProperty_eq (hascii : (NodeData.element "meta" attrs).Ascii) :
    visitProperty urls absPath attrs tags =
      ((ogProperty attrs).map (pushProperty urls absPath tags)).getD (.ok tags) := by
  rw [visitProperty, ogProperty]
  cases hv : attrValue "property" attrs with
  | none => rfl
  | some v =>
    rw [Option.bind_some]
    dsimp only
    by_cases hog : startsWith "og:" v = true
    · rw [if_pos hog, if_pos hog, getUnchecked_eq (hascii v hv hog)]
      cases attrValue "content" attrs with
      | none => rfl
      | some content =>
        rw [Option.map_some, Option.map_some, Option.getD_some, pushProperty, okOr]
        generalize String.ofList (v.toList.drop 3) = key
        rfl
    · rw [if_neg hog, if_neg hog]
      rfl

theorem collects_pushProperty {p : String × String}
    (h : pushProperty urls absPath tags p = .ok tags') :
    ∃ pushed, tags' = tags ++ pushed ∧ Collects urls absPath [p] pushed := by
  unfold pushProperty at h
  by_cases hrel : isRelative (key0 p.1) (key1 p.1) p.2 = true
  · rw [if_pos hrel, bind_eq_ok] at h
    obtain ⟨value, hvalue, hpush⟩ := h
    obtain rfl := pure_eq_ok.1 hpush
    refine ⟨_, rfl, .property ⟨rfl, rfl, ?_⟩⟩
    rw [if_pos hrel]
    exact okOr_eq_ok.1 hvalue
  · rw [if_neg hrel] at h
    obtain rfl := pure_eq_ok.1 h
    refine ⟨_, rfl, .property ⟨rfl, rfl, ?_⟩⟩
    rw [if_neg hrel]

theorem collects_visitProperty (hascii : (NodeData.element "meta" attrs).Ascii)
    (h : visitProperty urls absPath attrs tags = .ok tags') :
    ∃ pushed, tags' = tags ++ pushed ∧ Collects urls absPath (ogProperty attrs).toList pushed := by
  rw [visitProperty_eq hascii] at h
  cases hp : ogProperty attrs with
  | none =>
    rw [hp] at h
    exact ⟨[], (Except.ok.inj h).symm.trans (List.append_nil _).symm, .nil⟩
  | some p =>
    rw [hp] at h
    exact collects_pushProperty h

theorem collects_visitLink (h : visitLink urls absPath attrs tags = .ok tags') :
    ∃ pushed, tags' = tags ++ pushed ∧ Collects urls absPath [] pushed := by
  have hnone {x : Except WalkError (List Tag)} (hx : x = .ok tags) (h : x = .ok tags') :
      ∃ pushed, tags' = tags ++ pushed ∧ Collects urls absPath [] pushed :=
    ⟨[], (Except.ok.inj (hx.symm.trans h)).symm.trans (List.append_nil _).symm, .nil⟩
  unfold visitLink at h
  split at h
  · exact hnone rfl h
  · split at h
    · split at h
      · exact hnone rfl h
      · rw [bind_eq_ok] at h
        obtain ⟨value, -, hpush⟩ := h
        obtain rfl := pure_eq_ok.1 hpush
        exact ⟨_, rfl, .other rfl⟩
    · exact hnone rfl h

/-- A node pushes the tag of its property, if it has one. -/
theorem collects_visit {data : NodeData} {children : List Handle} (hascii : data.Ascii)
    (h : visit urls absPath data children tags = .ok tags') :
    ∃ pushed, tags' = tags ++ pushed ∧ Collects urls absPath data.ogProperties pushed := by
  have hnone {x : Except WalkError (List Tag)} (hx : x = .ok tags) (h : x = .ok tags') :
      ∃ pushed, tags' = tags ++ pushed ∧ Collects urls absPath [] pushed :=
    ⟨[], (Except.ok.inj (hx.symm.trans h)).symm.trans (List.append_nil _).symm, .nil⟩
  cases data with
  | element name attrs =>
    rw [NodeData.ogProperties]
    unfold visit at h
    dsimp only at h
    by_cases hmeta : name = "meta"
    · rw [if_pos hmeta] at h ⊢
      obtain ⟨pushed, hdescription, hpushed⟩ :=
        @collects_visitDescription Url urls absPath attrs tags
      obtain ⟨pushed', rfl, hpushed'⟩ := collects_visitProperty hascii h
      refine ⟨pushed ++ pushed', ?_, hpushed.append hpushed'⟩
      rw [hdescription, List.append_assoc]
    · rw [if_neg hmeta] at h ⊢
      split at h
      · exact ⟨_, (Except.ok.inj h).symm, .other rfl⟩
      · split at h
        · exact collects_visitLink h
        · exact hnone rfl h
  | processingInstruction => cases h
  | _ => exact hnone rfl h

mutual

/-- Going through a page collects the tags of its properties. -/
theorem collects_doWalk {url : String} (hurl : urls.parse url = some absPath) :
    (handle : Handle) → handle.Plain → (tags tags' : List Tag) →
      doWalk urls url handle tags = .ok tags' →
        ∃ pushed, tags' = tags ++ pushed ∧ Collects urls absPath handle.ogProperties pushed
  | .node data children, hplain, tags, tags', h => by
    rw [doWalk, hurl, bind_eq_ok] at h
    obtain ⟨_, habs, h⟩ := h
    obtain rfl := Option.some_inj.1 (okOr_eq_ok.1 habs)
    rw [bind_eq_ok] at h
    obtain ⟨next, hvisit, hrest⟩ := h
    obtain ⟨pushed, rfl, hpushed⟩ := collects_visit hplain.2.1 hvisit
    obtain ⟨pushed', rfl, hpushed'⟩ :=
      collects_doWalkAll hurl children hplain.2.2 (tags ++ pushed) tags' hrest
    exact ⟨pushed ++ pushed', List.append_assoc _ _ _, hpushed.append hpushed'⟩

theorem collects_doWalkAll {url : String} (hurl : urls.parse url = some absPath) :
    (handles : List Handle) → PlainAll handles → (tags tags' : List Tag) →
      doWalkAll urls url handles tags = .ok tags' →
        ∃ pushed, tags' = tags ++ pushed ∧ Collects urls absPath (ogPropertiesAll handles) pushed
  | [], _, tags, tags', h => ⟨[], (Except.ok.inj h).symm.trans (List.append_nil _).symm, .nil⟩
  | child :: children, hplain, tags, tags', h => by
    rw [doWalkAll, bind_eq_ok] at h
    obtain ⟨next, hchild, hrest⟩ := h
    obtain ⟨pushed, rfl, hpushed⟩ := collects_doWalk hurl child hplain.1 tags next hchild
    obtain ⟨pushed', rfl, hpushed'⟩ :=
      collects_doWalkAll hurl children hplain.2 (tags ++ pushed) tags' hrest
    exact ⟨pushed ++ pushed', List.append_assoc _ _ _, hpushed.append hpushed'⟩

end

/-! ### What can go wrong -/

theorem eq_url_of_visitProperty {e : WalkError} (hascii : (NodeData.element "meta" attrs).Ascii)
    (h : visitProperty urls absPath attrs tags = .error e) : e = .url := by
  rw [visitProperty_eq hascii] at h
  cases hp : ogProperty attrs with
  | none =>
    rw [hp] at h
    cases h
  | some p =>
    rw [hp, Option.map_some, Option.getD_some] at h
    unfold pushProperty at h
    split at h
    · rcases bind_eq_error.1 h with hjoin | ⟨_, -, h⟩
      · exact (okOr_eq_error.1 hjoin).2.symm
      · cases h
    · cases h

theorem eq_url_of_visitLink {e : WalkError} (h : visitLink urls absPath attrs tags = .error e) :
    e = .url := by
  unfold visitLink at h
  split at h
  · cases h
  · split at h
    · split at h
      · cases h
      · rcases bind_eq_error.1 h with hjoin | ⟨_, -, h⟩
        · exact (okOr_eq_error.1 hjoin).2.symm
        · cases h
    · cases h

theorem eq_url_of_visit {data : NodeData} {children : List Handle} {e : WalkError}
    (hdata : data ≠ .processingInstruction) (hascii : data.Ascii)
    (h : visit urls absPath data children tags = .error e) : e = .url := by
  cases data with
  | element name attrs =>
    unfold visit at h
    dsimp only at h
    split at h
    · exact eq_url_of_visitProperty hascii h
    · split at h
      · cases h
      · split at h
        · exact eq_url_of_visitLink h
        · cases h
  | processingInstruction => exact absurd rfl hdata
  | _ => cases h

mutual

theorem eq_url_of_doWalk {url : String} {e : WalkError} :
    (handle : Handle) → handle.Plain → (tags : List Tag) →
      doWalk urls url handle tags = .error e → e = .url
  | .node data children, hplain, tags, h => by
    rw [doWalk, bind_eq_error] at h
    rcases h with hparse | ⟨absPath, -, h⟩
    · exact (okOr_eq_error.1 hparse).2.symm
    · rcases bind_eq_error.1 h with hvisit | ⟨next, -, hrest⟩
      · exact eq_url_of_visit hplain.1 hplain.2.1 hvisit
      · exact eq_url_of_doWalkAll children hplain.2.2 next hrest

theorem eq_url_of_doWalkAll {url : String} {e : WalkError} :
    (handles : List Handle) → PlainAll handles → (tags : List Tag) →
      doWalkAll urls url handles tags = .error e → e = .url
  | [], _, _, h => by cases h
  | child :: children, hplain, tags, h => by
    rw [doWalkAll] at h
    rcases bind_eq_error.1 h with hchild | ⟨next, -, hrest⟩
    · exact eq_url_of_doWalk child hplain.1 tags hchild
    · exact eq_url_of_doWalkAll children hplain.2 next hrest

end

/-! ### Images, audios and videos -/

/-- A field of the object is put together from the tags of one kind. -/
theorem foldl_put {α : Type} {f : Object → List α} {place : List α → Structured → List α}
    {k : String}
    (hput : ∀ obj t, f (obj.put t) = if t.key0 = k then place (f obj) t.structured else f obj)
    (tags : List Tag) (obj : Object) : f (tags.foldl Object.put obj) =
      ((tags.filter fun t ↦ t.key0 = k).map Tag.structured).foldl place (f obj) := by
  induction tags generalizing obj with
  | nil => rfl
  | cons t tags ih =>
    rw [List.foldl_cons, ih, hput, List.filter_cons]
    by_cases hk : t.key0 = k
    · rw [if_pos hk, if_pos (decide_eq_true hk), List.map_cons, List.foldl_cons]
    · rw [if_neg hk, if_neg fun h ↦ hk (of_decide_eq_true h)]

theorem images_put (obj : Object) (t : Tag) : (obj.put t).images =
    if t.key0 = "image" then placeImage obj.images t.structured else obj.images := by
  by_cases h : t.key0 = "image"
  · simp +decide only [Object.put, h, if_true, if_false]
  · rw [if_neg h]
    simp only [Object.put, apply_ite Object.images, h, if_false, ite_self]

theorem audios_put (obj : Object) (t : Tag) : (obj.put t).audios =
    if t.key0 = "audio" then placeAudio obj.audios t.structured else obj.audios := by
  by_cases h : t.key0 = "audio"
  · simp +decide only [Object.put, h, if_true, if_false]
  · rw [if_neg h]
    simp only [Object.put, apply_ite Object.audios, h, if_false, ite_self]

theorem videos_put (obj : Object) (t : Tag) : (obj.put t).videos =
    if t.key0 = "video" then placeVideo obj.videos t.structured else obj.videos := by
  by_cases h : t.key0 = "video"
  · simp +decide only [Object.put, h, if_true, if_false]
  · rw [if_neg h]
    simp only [Object.put, apply_ite Object.videos, h, if_false, ite_self]

theorem url_imageSet (e : Structured) (v : Image) : (v.set e).url = v.url := by
  simp only [Image.set, apply_ite Image.url, ite_self]

theorem url_audioSet (e : Structured) (v : Audio) : (v.set e).url = v.url := by
  simp only [Audio.set, apply_ite Audio.url, ite_self]

theorem url_videoSet (e : Structured) (v : Video) : (v.set e).url = v.url := by
  simp only [Video.set, apply_ite Video.url, ite_self]

/-- The objects of a kind are those of blocks of its properties, each with the content of the first
as its url, and what the others say. -/
structure Shows {α : Type} (urls : Urls Url) (absPath : Url) (props : List (String × String))
    (k : String) (new : Structured → α) (set : Structured → α → α) (url : α → String)
    (objects : List α) (blocks : List (Structured × List Structured)) : Prop where
  properties : ∃ tags, List.Forall₂ (TagOf urls absPath) (props.filter fun p ↦ key0 p.1 = k) tags ∧
    tags.map Tag.structured = Blocks.events blocks
  divides : Blocks.Divides opensObject blocks
  placed : objects = blocks.map (Blocks.object opensObject new set)
  url : objects.map url = blocks.map fun b ↦ b.1.2

theorem forall₂_filter {α β : Type} {R : α → β → Prop} {p : α → Bool} {q : β → Bool} {as : List α}
    {bs : List β} (hpq : ∀ a b, R a b → p a = q b) (h : List.Forall₂ R as bs) :
    List.Forall₂ R (as.filter p) (bs.filter q) := by
  induction h with
  | nil => exact .nil
  | @cons a b as bs hab _ ih =>
    rw [List.filter_cons, List.filter_cons, hpq a b hab]
    split
    · exact .cons hab ih
    · exact ih

theorem shows_of_collects {α : Type} {f : Object → List α} {new : Structured → α}
    {set : Structured → α → α} {url : α → String} {k : String} {props : List (String × String)}
    (hcollects : Collects urls absPath props tags) (hk : isMedia k = true)
    (hput : ∀ obj t, f (obj.put t) =
      if t.key0 = k then Blocks.place opensObject new set (f obj) t.structured else f obj)
    (hempty : f {} = []) (hnew : ∀ e, url (new e) = e.2)
    (hset : ∀ e v, url (set e v) = url v) :
    ∃ blocks, Shows urls absPath props k new set url (f (tags.foldl Object.put {})) blocks := by
  obtain ⟨ogTags, -, hall, hfilter⟩ := hcollects
  obtain ⟨blocks, hevents, hdivides, hobjects⟩ :=
    @Blocks.exists_blocks _ _ opensObject new set
      ((tags.filter fun t ↦ t.key0 = k).map Tag.structured)
  have hf : f (tags.foldl Object.put {}) = blocks.map (Blocks.object opensObject new set) := by
    rw [foldl_put hput, hempty, hobjects]
  refine ⟨blocks, ⟨ogTags.filter fun t ↦ t.key0 = k, ?_, ?_⟩, hdivides, hf, ?_⟩
  · exact forall₂_filter (fun p t h ↦ by rw [h.key0]) hall
  · rw [← hfilter k hk, hevents]
  · rw [hf, List.map_map]
    exact List.map_congr_left fun b _ ↦ (Blocks.proj_object url hset b).trans (hnew b.1)

/-- **Pages are gone through without a panic, their properties have the keys that their names say,
and the images, audios and videos are those of blocks of properties.** -/
theorem walk_laws (urls : Urls Url) {handle : Handle} (hplain : handle.Plain) (url : String) :
    (∀ e, walk urls handle url = .error e → e = .url) ∧
      ∀ obj, walk urls handle url = .ok obj → ∃ absPath tags, urls.parse url = some absPath ∧
        doWalk urls url handle [] = .ok tags ∧ Collects urls absPath handle.ogProperties tags ∧
        (∃ blocks, Shows urls absPath handle.ogProperties "image" (fun e ↦ { url := e.2 }) Image.set
          Image.url obj.images blocks) ∧
        (∃ blocks, Shows urls absPath handle.ogProperties "audio" (fun e ↦ { url := e.2 }) Audio.set
          Audio.url obj.audios blocks) ∧
        ∃ blocks, Shows urls absPath handle.ogProperties "video" (fun e ↦ { url := e.2 }) Video.set
          Video.url obj.videos blocks := by
  constructor
  · intro e h
    rcases bind_eq_error.1 h with hwalk | ⟨_, -, h⟩
    · exact eq_url_of_doWalk handle hplain [] hwalk
    · cases h
  · intro obj h
    obtain ⟨tags, htags, hobj⟩ := bind_eq_ok.1 h
    obtain rfl := pure_eq_ok.1 hobj
    obtain ⟨absPath, habs⟩ : ∃ absPath, urls.parse url = some absPath := by
      cases handle with
      | node data children =>
        rw [doWalk, bind_eq_ok] at htags
        obtain ⟨absPath, habs, -⟩ := htags
        exact ⟨absPath, okOr_eq_ok.1 habs⟩
    obtain ⟨pushed, hpushed, hcollects⟩ := collects_doWalk habs handle hplain [] tags htags
    rw [List.nil_append] at hpushed
    subst hpushed
    exact ⟨absPath, tags, habs, htags, hcollects,
      shows_of_collects hcollects rfl images_put rfl (fun _ ↦ rfl) url_imageSet,
      shows_of_collects hcollects rfl audios_put rfl (fun _ ↦ rfl) url_audioSet,
      shows_of_collects hcollects rfl videos_put rfl (fun _ ↦ rfl) url_videoSet⟩

/-- Pages below `http://a/`. -/
def sampleUrls : Urls String where
  parse url := if startsWith "http" url then some url else none
  join base path := some (base ++ path)

def metaTag (property content : String) : Handle :=
  .node (.element "meta" [("property", property), ("content", content)]) []

/-- A page with two images, the first of them given by a path. -/
def samplePage : Handle :=
  .node .document [metaTag "og:image" "rock.jpg", metaTag "og:image:width" "400",
    metaTag "og:image" "http://b/rock.jpg"]

theorem plain_metaTag {property : String} (h : property.toList.all fun c ↦ c.toNat < 128)
    (content : String) : (metaTag property content).Plain := by
  refine ⟨fun h ↦ NodeData.noConfusion h, fun v hv _ c hc ↦ ?_, trivial⟩
  obtain rfl := Option.some_inj.1 hv
  exact of_decide_eq_true (List.all_eq_true.1 h c hc)

theorem plain_samplePage : samplePage.Plain :=
  ⟨by decide, trivial, plain_metaTag (by decide) _, plain_metaTag (by decide) _,
    plain_metaTag (by decide) _, trivial⟩

example : (walk sampleUrls samplePage "http://a/").map Object.images =
    .ok [{ url := "http://a/rock.jpg", width := some 400 }, { url := "http://b/rock.jpg" }] := by
  decide

theorem walk_laws_samplePage :
    (∀ e, walk sampleUrls samplePage "http://a/" = .error e → e = .url) ∧
      ∀ obj, walk sampleUrls samplePage "http://a/" = .ok obj →
        ∃ absPath tags, sampleUrls.parse "http://a/" = some absPath ∧
        doWalk sampleUrls "http://a/" samplePage [] = .ok tags ∧
        Collects sampleUrls absPath samplePage.ogProperties tags ∧
        (∃ blocks, Shows sampleUrls absPath samplePage.ogProperties "image"
          (fun e ↦ { url := e.2 }) Image.set Image.url obj.images blocks) ∧
        (∃ blocks, Shows sampleUrls absPath samplePage.ogProperties "audio"
          (fun e ↦ { url := e.2 }) Audio.set Audio.url obj.audios blocks) ∧
        ∃ blocks, Shows sampleUrls absPath samplePage.ogProperties "video"
          (fun e ↦ { url := e.2 }) Video.set Video.url obj.videos blocks :=
  walk_laws sampleUrls plain_samplePage "http://a/"

/-- The width of an image is the url of one, on a page without `og:image`. -/
theorem not_url_of_width :
    walk sampleUrls (metaTag "og:image:width" "400") "http://a/" =
        .ok { images := [{ url := "400", width := some 400 }] } ∧
      (metaTag "og:image:width" "400").ogProperties = [("image:width", "400")] :=
  ⟨by decide, by decide⟩

/-- A name that is not ASCII is cut inside of its last character. -/
example : walk sampleUrls (metaTag "og:é" "") "http://a/" = .error .notBoundary := by decide

end OpenGraph

end VoceChat
