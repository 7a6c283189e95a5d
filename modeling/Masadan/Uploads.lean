import Masadan.PosixPath
import Masadan.Schema

/-!
# Menu photos on disk

`src/lib/storage/index.ts` and `api/media/[...path]`: photos are kept in a directory, and a key
names one in it. The route takes the key from the URL, so whatever it says is resolved first,
and what does not lie in the directory is refused.

The check compares texts: the resolved path is the directory's, or begins with the directory's
and a separator. It refuses a key exactly when the key leads out of the directory
(`upload_contained`), so the route serves files of the directory only (`getMedia_contained`).
-/

namespace Masadan

/-- The marks of POSIX: `path.sep` and the dot. -/
def posix : Posix.Marks UInt16 := ⟨0x2f, 0x2e⟩

/-- The default of `UPLOAD_DIR`. -/
def DEFAULT_UPLOAD_DIR : Text := text "/var/lib/masadan/uploads"

/-- **Resolves a storage key** to an absolute path inside `UPLOAD_DIR`, refusing anything that
escapes it. -/
def resolveUploadPath (cwd : Text) (uploadDir : Option Text) (key : Text) : Except Text Text :=
  let root := posix.resolve cwd [uploadDir.getD DEFAULT_UPLOAD_DIR]
  let target := posix.resolve cwd [root, key]
  if target ≠ root ∧ ¬ (root ++ [posix.sep]).isPrefixOf target then
    .error (text "upload path escapes UPLOAD_DIR")
  else .ok target

/-- The directory is the path it resolves to. -/
theorem uploadDir_normal {cwd root : Text} (h : posix.Normal root) :
    posix.resolve cwd [root] = root := by
  obtain ⟨place, hplace, rfl⟩ := h
  rw [Posix.Marks.resolve_eq, List.foldl_cons, List.foldl_nil,
    Posix.Marks.follow_render _ hplace]

/-- The path a key resolves to, by the place it leads to. -/
theorem resolve_key {cwd key : Text} {place : List Text} (h : ∀ name ∈ place, posix.Name name) :
    posix.resolve cwd [posix.render place, key] = posix.render (posix.follow place key) := by
  rw [Posix.Marks.resolve_eq, List.foldl_cons, List.foldl_cons, List.foldl_nil,
    Posix.Marks.follow_render _ h]

/-- **A key is refused when it leads out of the directory**, and else resolves to where it
leads. -/
theorem resolveUploadPath_spec {cwd key : Text} {place : List Text} {uploadDir : Option Text}
    (hname : ∀ name ∈ place, posix.Name name) (hne : place ≠ [])
    (hdir : uploadDir.getD DEFAULT_UPLOAD_DIR = posix.render place) :
    resolveUploadPath cwd uploadDir key
      = if place <+: posix.follow place key then .ok (posix.render (posix.follow place key))
        else .error (text "upload path escapes UPLOAD_DIR") := by
  have htarget := Posix.Marks.follow_names key hname
  unfold resolveUploadPath
  dsimp only
  rw [hdir, uploadDir_normal ⟨place, hname, rfl⟩, resolve_key hname]
  have hwithin := Posix.Marks.render_prefix_iff hname htarget hne
  by_cases hinside : place <+: posix.follow place key
  · rw [if_pos hinside, if_neg]
    rintro ⟨hother, hnot⟩
    refine hnot (List.isPrefixOf_iff_prefix.mpr (hwithin.mpr ⟨hinside, fun heq => ?_⟩))
    exact hother (congrArg posix.render heq.symm)
  · rw [if_neg hinside, if_pos]
    refine ⟨fun heq => ?_, fun hpre => ?_⟩
    · rw [Posix.Marks.render_inj htarget hname heq] at hinside
      exact hinside (List.prefix_refl place)
    · exact hinside (hwithin.mp (List.isPrefixOf_iff_prefix.mp hpre)).1

theorem resolved_inside {cwd root key path : Text} (hroot : posix.Normal root)
    (hne : root ≠ [posix.sep]) (h : resolveUploadPath cwd (some root) key = .ok path) :
    posix.names root <+: posix.names path := by
  obtain ⟨place, hname, rfl⟩ := hroot
  rw [resolveUploadPath_spec hname (fun hnil => hne (hnil ▸ rfl)) rfl] at h
  split at h
  · next hinside =>
    cases h
    rw [Posix.Marks.names_render hname,
      Posix.Marks.names_render (Posix.Marks.follow_names key hname)]
    exact hinside
  · cases h

/-- **Photo paths stay inside the directory, and nothing inside is refused.** -/
theorem upload_contained (cwd : Text) {root : Text} (hroot : posix.Normal root)
    (hne : root ≠ [posix.sep]) (key : Text) :
    (∀ path, resolveUploadPath cwd (some root) key = .ok path →
      path = root ∨ (posix.names root <+: posix.names path ∧ posix.names root ≠ posix.names path))
    ∧ ((∃ e, resolveUploadPath cwd (some root) key = .error e)
      ↔ ¬ posix.names root <+: posix.follow (posix.names root) key) := by
  refine ⟨fun path hpath => ?_, ?_⟩
  · have hinside := resolved_inside hroot hne hpath
    obtain ⟨place, hname, rfl⟩ := hroot
    rw [resolveUploadPath_spec hname (fun hnil => hne (hnil ▸ rfl)) rfl] at hpath
    split at hpath
    · cases hpath
      rw [Posix.Marks.names_render hname,
        Posix.Marks.names_render (Posix.Marks.follow_names key hname)] at hinside ⊢
      by_cases heq : place = posix.follow place key
      · exact .inl (congrArg posix.render heq.symm)
      · exact .inr ⟨hinside, heq⟩
    · cases hpath
  · obtain ⟨place, hname, rfl⟩ := hroot
    rw [Posix.Marks.names_render hname,
      resolveUploadPath_spec hname (fun hnil => hne (hnil ▸ rfl)) rfl]
    split
    · next hinside => exact ⟨fun ⟨e, he⟩ => (by cases he), fun hnot => absurd hinside hnot⟩
    · next hnot => exact ⟨fun _ => hnot, fun _ => ⟨_, rfl⟩⟩

/-- A key that climbs out, and back into a sibling whose name the directory's begins. -/
theorem upload_contained_sibling :
    ∃ e, resolveUploadPath (text "/") (some (text "/srv/uploads")) (text "a/../../uploads-backup/b")
      = .error e :=
  (upload_contained (text "/") (show posix.Normal (text "/srv/uploads") from
    ⟨[text "srv", text "uploads"], by decide, by decide⟩) (by decide)
    (text "a/../../uploads-backup/b")).2.mpr (by decide)

/-! ## Reading photos back -/

/-- `path.extname`: what follows the last dot of the last name, with the dot, unless the name
begins with it or is two dots. -/
def extname (key : Text) : Text :=
  let base := ((key.rdropWhile (· == posix.sep)).reverse.takeWhile (· != posix.sep)).reverse
  let after := (base.reverse.takeWhile (· != posix.dot)).reverse
  if base = [posix.dot, posix.dot] ∨ base.length ≤ after.length + 1 then [] else posix.dot :: after

/-- Only the types the upload route accepts are ever served back. -/
def CONTENT_TYPES : List (Text × Text) :=
  [(text ".jpg", text "image/jpeg"), (text ".jpeg", text "image/jpeg"),
    (text ".png", text "image/png"), (text ".webp", text "image/webp")]

structure Stored where
  body : List UInt8
  contentType : Text
  deriving DecidableEq, Repr

/-- **Reads a stored file back**, from the files there are; `none` when it does not exist. -/
def readStored (files : Text → Option (List UInt8)) (cwd : Text) (uploadDir : Option Text)
    (key : Text) : Option Stored :=
  match CONTENT_TYPES.lookup (extname key).toLowerCase with
  | none => none
  | some contentType =>
    match resolveUploadPath cwd uploadDir key with
    | .error _ => none
    | .ok path => (files path).map (fun body => ⟨body, contentType⟩)

inductive MediaAnswer where
  | not_found
  | ok (stored : Stored)
  deriving DecidableEq, Repr

/-- The HTTP status of an answer. -/
def MediaAnswer.status : MediaAnswer → ℕ
  | .not_found => 404
  | .ok _ => 200

/-- **`GET /api/media/[...path]`**, by the segments of its path. -/
def getMedia (files : Text → Option (List UInt8)) (cwd : Text) (uploadDir : Option Text)
    (segments : List Text) : MediaAnswer :=
  match readStored files cwd uploadDir ([posix.sep].intercalate segments) with
  | none => .not_found
  | some stored => .ok stored

/-- **The route serves files of the directory only**, under a type of a photo. -/
theorem getMedia_contained {files : Text → Option (List UInt8)} {cwd root : Text}
    (hroot : posix.Normal root) (hne : root ≠ [posix.sep]) {segments : List Text} {stored : Stored}
    (h : getMedia files cwd (some root) segments = .ok stored) :
    (∃ path, files path = some stored.body ∧ posix.names root <+: posix.names path)
      ∧ stored.contentType ∈ CONTENT_TYPES.map Prod.snd := by
  unfold getMedia at h
  split at h
  · cases h
  · next found hfound =>
    cases h
    unfold readStored at hfound
    split at hfound
    · cases hfound
    · next contentType htype =>
      split at hfound
      · cases hfound
      · next path hpath =>
        obtain ⟨body, hbody, rfl⟩ := Option.map_eq_some_iff.mp hfound
        obtain ⟨before, after, hsplit, _⟩ := List.lookup_eq_some_iff.mp htype
        refine ⟨⟨path, hbody, resolved_inside hroot hne hpath⟩, ?_⟩
        rw [hsplit]
        exact List.mem_map_of_mem (List.mem_append_right _ List.mem_cons_self)

end Masadan
