import AgentColab.Artifacts.Quarantine
import AgentColab.Domain.Text
import Mathlib.Data.List.Infix

/-!
# Uploads

`store_upload` checks the name and the declared type, writes what it reads, which becomes the blob
of its digest, and compares the declared type with the first bytes. An upload refused there has
stored its bytes, unless the blob was there before.
-/

namespace AgentColab.Artifacts

open List

/-- `ArtifactUploadError`, which repeats the code and the detail of an `ArtifactStorageError`. -/
structure UploadError where
  code : String
  detail : String

/-! ## Policy -/

/-- `str.lower` of a character that becomes one of those which the patterns below accept; the
others stay outside of these. -/
def lowerChar (c : Char) : List Char :=
  if c.toNat = 0x130 then ['i', Char.ofNat 0x307]
  else if c.toNat = 0x212a then ['k']
  else [c.toLower]

def lower (s : String) : String := String.ofList (s.toList.flatMap lowerChar)

/-- `DENIED_EXTENSIONS` -/
def deniedExtensions : List String :=
  [".exe", ".dll", ".sh", ".bat", ".cmd", ".ps1", ".msi", ".scr", ".com", ".jar", ".vbs", ".js",
    ".hta"]

/-- `DENIED_MIME_PREFIXES` -/
def deniedMimePrefixes : List String :=
  ["application/x-msdownload", "application/x-executable", "application/x-sh",
    "application/x-shellscript", "application/x-elf", "application/x-dosexec",
    "application/vnd.microsoft.portable-executable", "application/x-msi",
    "application/java-archive", "text/x-shellscript", "text/x-python",
    "application/x-python-code", "application/javascript", "text/javascript",
    "application/x-bat", "application/hta"]

/-- `os.path.splitext`, of a name that does not begin with a point. -/
def extension (cs : List Char) : List Char :=
  if '.' ∈ cs then '.' :: (cs.reverse.takeWhile (· ≠ '.')).reverse else []

/-- `_FILENAME_RE` -/
def isFilename : List Char → Bool
  | [] => false
  | c :: cs => c.isAlphanum && cs.length ≤ 254 &&
      cs.all fun d ↦ d.isAlphanum || ['.', '_', ' ', '-'].contains d

/-- `validate_filename` -/
def validateFilename (filename : String) : Except UploadError String :=
  let cs := filename.toList
  let ext := lower (String.ofList (extension cs))
  if cs = [] ∨ cs.any (·.toNat < 32) then
    .error ⟨"ARTIFACT_PATH_INVALID", "control characters or empty name"⟩
  else if ['.', '.'] <:+: cs ∨ '/' ∈ cs ∨ '\\' ∈ cs then
    .error ⟨"ARTIFACT_PATH_INVALID", "path components are not allowed"⟩
  else if (cs.head?.any Char.isAlpha) ∧ cs.tail.head? = some ':' then
    .error ⟨"ARTIFACT_PATH_INVALID", "drive-prefixed names are not allowed"⟩
  else if isFilename cs = false then
    .error ⟨"ARTIFACT_PATH_INVALID", "unsupported characters in file name"⟩
  else if ext ∈ deniedExtensions then
    .error ⟨"ARTIFACT_MIME_DENIED", "extension " ++ ext ++ " is not allowed"⟩
  else .ok filename

/-- The characters of `_MIME_RE`, in a lowered text: two that are not ASCII fold to letters. -/
def isMimeChar (c : Char) : Bool :=
  ('a' ≤ c && c ≤ 'z') || c.isDigit || "!#$&^_.+-".toList.contains c ||
    c.toNat = 0x131 || c.toNat = 0x17f

/-- `_MIME_RE` -/
def isMime (cs : List Char) : Bool :=
  match cs.dropWhile isMimeChar with
  | '/' :: sub => cs.takeWhile isMimeChar ≠ [] && sub ≠ [] && sub.all isMimeChar
  | _ => false

/-- `validate_mime` -/
def validateMime (mime : String) : Except UploadError String :=
  let value := lower (strip mime)
  if isMime value.toList = false then .error ⟨"ARTIFACT_MIME_DENIED", "malformed MIME type"⟩
  else if deniedMimePrefixes.any fun p ↦ p.toList.isPrefixOf value.toList then
    .error ⟨"ARTIFACT_MIME_DENIED", value ++ " is denied by policy"⟩
  else .ok value

/-! ## Content -/

/-- `_MAGIC` -/
def magic : List (Bytes × ℕ × String) :=
  [([0x89, 0x50, 0x4e, 0x47, 0x0d, 0x0a, 0x1a, 0x0a], 0, "image/png"),
    ([0xff, 0xd8, 0xff], 0, "image/jpeg"),
    ("GIF87a".toUTF8.toList, 0, "image/gif"), ("GIF89a".toUTF8.toList, 0, "image/gif"),
    ("%PDF-".toUTF8.toList, 0, "application/pdf"), ([0x50, 0x4b, 3, 4], 0, "application/zip"),
    ([0x1f, 0x8b], 0, "application/gzip"), ([0x7f, 0x45, 0x4c, 0x46], 0, "application/x-elf"),
    ("MZ".toUTF8.toList, 0, "application/x-dosexec"),
    ("#!".toUTF8.toList, 0, "application/x-shellscript"),
    ([0xca, 0xfe, 0xba, 0xbe], 0, "application/java-vm"), ("ftyp".toUTF8.toList, 4, "video/mp4")]

/-- `_TEXTUAL` -/
def isTextual (b : UInt8) : Bool :=
  [9, 10, 13].contains b || (0x20 ≤ b && b ≤ 0x7e) || (0xc2 ≤ b && b ≤ 0xf4) ||
    (0x80 ≤ b && b ≤ 0xbf)

/-- `SNIFF_BYTES` -/
def sniffBytes : ℕ := 4096

/-- `sniff` -/
def sniff (head : Bytes) : String :=
  match magic.find? fun m ↦ (head.drop m.2.1).take m.1.length = m.1 with
  | some m => m.2.2
  | none => if head ≠ [] ∧ head.all isTextual then "text/plain" else "application/octet-stream"

/-- `_ZIP_ALIASES` -/
def zipAliases : List String :=
  ["application/zip", "application/vnd.openxmlformats-officedocument.wordprocessingml.document",
    "application/vnd.openxmlformats-officedocument.spreadsheetml.sheet",
    "application/vnd.openxmlformats-officedocument.presentationml.presentation",
    "application/vnd.oasis.opendocument.text", "application/vnd.oasis.opendocument.spreadsheet",
    "application/epub+zip"]

/-- `mime_matches` -/
def mimeMatches (declared sniffed : String) : Bool :=
  let declared := lower declared
  let isText := "text/".toList.isPrefixOf declared.toList
  if sniffed = "application/zip" then zipAliases.contains declared
  else if sniffed = "text/plain" then
    isText || ["application/json", "application/xml", "application/yaml", "application/x-yaml",
      "application/toml", "application/csv", "application/octet-stream"].contains declared
  else if sniffed = "application/octet-stream" then !isText
  else if ["application/x-elf", "application/x-dosexec", "application/x-shellscript"].contains
    sniffed then false
  else
    let family := sniffed.toList.takeWhile (· ≠ '/')
    declared = sniffed || (family ++ ['/']).isPrefixOf declared.toList

/-! ## The upload -/

/-- The files under the root: the blobs, and the temporary files with their workspaces. -/
structure Files where
  blobs : Storage
  uploads : List (String × Bytes)

/-- The loop of `write`: the bytes in the temporary file, those which the `_SniffingStream` has
kept, and whether the limit has been kept. -/
def receive (maxBytes : ℕ) (written head : Bytes) : List Bytes → Bytes × Bytes × Bool
  | [] | [] :: _ => (written, head, true)
  | chunk :: reads =>
    let head := if head.length < sniffBytes then head ++ chunk.take (sniffBytes - head.length)
      else head
    if maxBytes < written.length + chunk.length then (written, head, false)
    else receive maxBytes (written ++ chunk) head reads

/-- `ArtifactStorage.write`, with what the stream has kept. The temporary file is unlinked, unless
it has become the blob. -/
def Files.write (maxBytes : ℕ) (f : Files) (workspaceId filename mime : String)
    (reads : List Bytes) : Files × Except UploadError Bytes :=
  match validateFilename filename, validateMime mime with
  | .error e, _ => (f, .error e)
  | _, .error e => (f, .error e)
  | .ok _, .ok _ =>
    let (written, head, complete) := receive maxBytes [] [] reads
    let f := { f with uploads := (workspaceId, written) :: f.uploads }
    if complete then
      (⟨f.blobs.write workspaceId written, f.uploads.tail⟩, .ok head)
    else
      (⟨f.blobs, f.uploads.tail⟩,
        .error ⟨"ARTIFACT_TOO_LARGE", "exceeds " ++ toString maxBytes ++ " bytes"⟩)

/-- `store_upload`: the name, the declared and the sniffed type. -/
def storeUpload (maxBytes : ℕ) (f : Files) (workspaceId filename mime : String)
    (reads : List Bytes) : Files × Except UploadError (String × String × String) :=
  match validateFilename filename, validateMime mime with
  | .error e, _ => (f, .error e)
  | _, .error e => (f, .error e)
  | .ok safeName, .ok declared =>
    match f.write maxBytes workspaceId safeName declared reads with
    | (f, .error e) => (f, .error e)
    | (f, .ok head) =>
      let sniffed := sniff head
      if mimeMatches declared sniffed then (f, .ok (safeName, declared, sniffed))
      else (f, .error ⟨"ARTIFACT_MIME_MISMATCH",
        "declared " ++ declared ++ " but content looks like " ++ sniffed⟩)

/-! ## What a refused upload leaves -/

variable {maxBytes : ℕ} {f : Files} {workspaceId filename mime declared : String}
  {reads : List Bytes}

theorem validateFilename_ok {safeName : String} (h : validateFilename filename = .ok safeName) :
    safeName = filename := by
  unfold validateFilename at h
  dsimp only at h
  split_ifs at h
  exact (Except.ok.inj h).symm

/-- What the calls of `read` give up to the end of the file. -/
def content (reads : List Bytes) : Bytes := (reads.takeWhile (· ≠ [])).flatten

theorem receive_eq {written : Bytes} (hw : written.length ≤ maxBytes) :
    ∃ w h, receive maxBytes written (written.take sniffBytes) reads =
        (w, h, decide ((written ++ content reads).length ≤ maxBytes)) ∧
      ((written ++ content reads).length ≤ maxBytes →
        w = written ++ content reads ∧ h = (written ++ content reads).take sniffBytes) := by
  induction reads generalizing written with
  | nil => exact ⟨written, _, by simp only [receive, content]; simp [hw]; rfl, by simp [content]⟩
  | cons chunk reads ih =>
    cases chunk with
    | nil => exact ⟨written, _, by simp only [receive, content]; simp [hw]; rfl, by simp [content]⟩
    | cons b bs =>
      have hcontent : content ((b :: bs) :: reads) = (b :: bs) ++ content reads := by simp [content]
      have hhead : (if (written.take sniffBytes).length < sniffBytes then
          written.take sniffBytes ++ (b :: bs).take (sniffBytes - (written.take sniffBytes).length)
          else written.take sniffBytes) = (written ++ b :: bs).take sniffBytes := by
        rw [take_append, length_take]
        split_ifs with hlt
        · rw [show min sniffBytes written.length = written.length by omega]
        · rw [show sniffBytes - written.length = 0 by omega, take_zero, append_nil]
      rw [receive.eq_3 _ _ _ _ _ (cons_ne_nil b bs), hhead, hcontent, ← append_assoc]
      split_ifs with hlarge
      · have hlong : ¬((written ++ b :: bs) ++ content reads).length ≤ maxBytes := by
          simp only [length_append] at hlarge ⊢
          omega
        exact ⟨_, _, by rw [decide_eq_false hlong], fun h ↦ (hlong h).elim⟩
      · exact ih (by rw [length_append]; omega)

/-- The name, the declared type and the size pass; `write` checks the type as the first check has
normalised it. -/
structure Passes (maxBytes : ℕ) (filename mime declared : String) (reads : List Bytes) : Prop where
  name : validateFilename filename = .ok filename
  mime : validateMime mime = .ok declared
  again : ∃ value, validateMime declared = .ok value
  size : (content reads).length ≤ maxBytes

/-- An upload that only the comparison with the content refuses, with bytes that were not there. -/
def Leaves (maxBytes : ℕ) (f : Files) (workspaceId filename mime : String) (reads : List Bytes) :
    Prop :=
  ∃ declared, Passes maxBytes filename mime declared reads ∧
    mimeMatches declared (sniff ((content reads).take sniffBytes)) = false ∧
    f.blobs workspaceId (Sha256.hexDigest (content reads)) = none

theorem Storage.write_eq_self {s : Storage} {bytes : Bytes} :
    s.write workspaceId bytes = s ↔ s workspaceId (Sha256.hexDigest bytes) ≠ none := by
  unfold Storage.write
  dsimp only
  split
  next _ h => simp [h]
  next h =>
    refine ⟨fun heq ↦ ?_, fun hne ↦ (hne h).elim⟩
    have := congrFun (congrFun heq workspaceId) (Sha256.hexDigest bytes)
    simp [h] at this

theorem Passes.storeUpload_eq (h : Passes maxBytes filename mime declared reads) (f : Files)
    (workspaceId : String) : (storeUpload maxBytes f workspaceId filename mime reads).1 =
        ⟨f.blobs.write workspaceId (content reads), f.uploads⟩ ∧
      ((∃ e, (storeUpload maxBytes f workspaceId filename mime reads).2 = .error e) ↔
        mimeMatches declared (sniff ((content reads).take sniffBytes)) = false) := by
  obtain ⟨w, head, hreceive, hall⟩ := @receive_eq maxBytes reads [] (Nat.zero_le _)
  obtain ⟨rfl, rfl⟩ := hall h.size
  obtain ⟨value, hagain⟩ := h.again
  simp only [take_nil, nil_append, decide_eq_true h.size] at hreceive
  simp only [storeUpload, Files.write, h.name, h.mime, hagain, hreceive, if_true, tail_cons]
  split_ifs with hmatch
  · simp [hmatch]
  · simpa using hmatch

theorem storeUpload_files (h : ∀ declared, ¬Passes maxBytes filename mime declared reads) :
    (storeUpload maxBytes f workspaceId filename mime reads).1 = f := by
  unfold storeUpload Files.write
  cases hname : validateFilename filename with
  | error => rfl
  | ok safeName =>
    obtain rfl := validateFilename_ok hname
    cases hmime : validateMime mime with
    | error => rfl
    | ok declared =>
      cases hagain : validateMime declared with
      | error => simp [hname, hagain]
      | ok again =>
        obtain ⟨w, head, hreceive, -⟩ := @receive_eq maxBytes reads [] (Nat.zero_le _)
        have hlarge : ¬(content reads).length ≤ maxBytes := fun hsize ↦
          h declared ⟨hname, hmime, ⟨again, hagain⟩, hsize⟩
        rw [nil_append, decide_eq_false hlarge] at hreceive
        simp [hname, hagain, take_nil ▸ hreceive]

/-- **A refused upload leaves the files as they were, unless its bytes are new and the last check is
the one that refuses it.** -/
theorem refused_upload_keeps_iff :
    ((∃ e, (storeUpload maxBytes f workspaceId filename mime reads).2 = .error e) →
        (storeUpload maxBytes f workspaceId filename mime reads).1 = f) ↔
      ¬Leaves maxBytes f workspaceId filename mime reads := by
  by_cases hpass : ∃ declared, Passes maxBytes filename mime declared reads
  · obtain ⟨declared, hpass⟩ := hpass
    obtain ⟨hfiles, hrefused⟩ := hpass.storeUpload_eq f workspaceId
    have hself : (⟨f.blobs.write workspaceId (content reads), f.uploads⟩ : Files) = f ↔
        f.blobs workspaceId (Sha256.hexDigest (content reads)) ≠ none := by
      rw [← Storage.write_eq_self]
      exact ⟨fun h ↦ congrArg Files.blobs h, fun h ↦ by rw [h]⟩
    rw [hrefused, hfiles, hself]
    constructor
    · rintro h ⟨declared', hpass', hmatch, hnone⟩
      obtain rfl := Except.ok.inj (hpass.mime.symm.trans hpass'.mime)
      exact h hmatch hnone
    · exact fun h hmatch hnone ↦ h ⟨declared, hpass, hmatch, hnone⟩
  · rw [not_exists] at hpass
    exact iff_of_true (fun _ ↦ storeUpload_files hpass) fun ⟨d, h, _⟩ ↦ hpass d h

theorem refused_upload_stores :
    ¬∀ (maxBytes : ℕ) (f : Files) (workspaceId filename mime : String) (reads : List Bytes),
      (∃ e, (storeUpload maxBytes f workspaceId filename mime reads).2 = .error e) →
        (storeUpload maxBytes f workspaceId filename mime reads).1 = f := by
  intro h
  have hpass : Passes 1 "a.txt" "text/plain" "text/plain" [[0]] := ⟨rfl, rfl, ⟨_, rfl⟩, by decide⟩
  obtain ⟨hfiles, hrefused⟩ := hpass.storeUpload_eq ⟨fun _ _ ↦ none, []⟩ "w"
  have hkept := h 1 _ "w" "a.txt" "text/plain" [[0]] (hrefused.mpr (by decide +kernel))
  rw [hfiles] at hkept
  have hblobs : Storage.write (fun _ _ ↦ none) "w" (content [[0]]) = fun _ _ ↦ none :=
    congrArg Files.blobs hkept
  exact Storage.write_eq_self.mp hblobs rfl

end AgentColab.Artifacts
