import Gomi.Images.Handlers
import Gomi.Transition

/-!
# Ready images and their payloads

An image that is ready and has a checksum is served as what the checksum says. A download is checked
against it, and is written next to the payload before it takes its place. An upload is not: the
payload is overwritten where it is, whatever the record says, and the checksum is not looked at
(`Gomi.Images.upload_unchecked`). A status update makes an image ready without looking at its
payload, and so does the upload of a boot file of a Windows image. Two images may have one path, and
the link by which an image is published may take the place of a payload.

`Gomi.Images.ready_matches` says what has to be avoided: as long as an upload is what the checksum
says, as status updates and boot files make images ready only if their payload is in place, and as
nothing is written and nothing is linked where the payload of a ready image is, every image that is
ready has a complete payload that matches its checksum, at every point of every run. While a request
writes files it has changed nothing but paths that are clear (`Gomi.Images.Within`), so that it may be
cut off anywhere.
-/

namespace Gomi.Images

open Go Files Prog

/-! ### Payloads -/

/-- The path of the payload of a record, as `imageWritePaths` places it. -/
def payloadOf (img : Image) : Option Path :=
  img.localPath.map fun localPath =>
    match manifestRootPath img with
    | .ok (some rel) => join localPath rel
    | _ => localPath

/-- **The payload of an image is in place**: the file is complete, and is what the checksum says. -/
def InPlace (lib : Lib) (t : Tree) (img : Image) : Prop :=
  ∃ p content, payloadOf img = some p ∧ t p = some (.file content true) ∧
    matchesChecksum lib img.checksum content = true

/-- The payload of every image that is ready is in place. -/
def ReadyInPlace (lib : Lib) (w : World) : Prop :=
  ∀ (name : String) (img : Image), w.images[name]? = some img → img.ready = true →
    InPlace lib w.files img

/-- **One request**, up to its end or up to where it was cut off. -/
def CallStep (lib : Lib) (cfg : Config) (w : World) (c : Call) (w' : World) : Prop :=
  Reaches step (c.prog lib cfg) w w'

/-- No image that is ready has its payload at the path. -/
def Clear (w : World) (p : Path) : Prop :=
  ∀ (n : String) (img : Image), w.images[n]? = some img → img.ready = true → payloadOf img ≠ some p

/-- No image that is ready, other than `name`, has its payload at the path. -/
def Free (w : World) (name : String) (p : Path) : Prop :=
  ∀ (n : String) (img : Image), w.images[n]? = some img → n ≠ name → img.ready = true →
    payloadOf img ≠ some p

/-- The paths that are changed when a file is published. -/
def PublishedAt (cfg : Config) (localPath q : Path) : Prop :=
  ∃ filesDir, cfg.filesDir = some filesDir ∧ localPath ≠ linkPath filesDir localPath ∧
    (q = linkPath filesDir localPath ∨ q = suffixed (linkPath filesDir localPath) ".tmp")

/-- **A careful request**, in the state before it. -/
def Careful (lib : Lib) (cfg : Config) (w : World) : Call → Prop
  -- the download of an image is neither stored nor linked where the payload of another one is, and
  -- the link does not replace the download
  | .create body => ∀ img scheme host path localPath p, body = some img →
    lib.parseURL (trimSpace img.url) = some (scheme, host, path) →
    imageWritePaths cfg { img with name := resourceID "osImages" img.name } (imageExtension path) =
      .ok (localPath, p) →
    Free w (resourceID "osImages" img.name) p ∧
      Free w (resourceID "osImages" img.name) (suffixed p ".download") ∧
      w.files.Plain (suffixed p ".download") ∧
      ∀ q, PublishedAt cfg localPath q → Free w (resourceID "osImages" img.name) q ∧ q ≠ p
  -- an upload is what the checksum says, is neither stored nor linked where the payload of a ready image
  -- is, and is not stored through a link
  | .upload name file => ∀ img f localPath p, w.images[name]? = some img → file = some f →
    imageWritePaths cfg { img with name } (uploadExtension f.filename) = .ok (localPath, p) →
    Clear w p ∧ w.files.Plain p ∧ (∀ q, PublishedAt cfg localPath q → Clear w q ∧ q ≠ p) ∧
      matchesChecksum lib img.checksum f.content = true
  -- a boot file is not stored where a payload is, and the payload of its own image is in place if a
  -- file is found where it is looked for
  | .artifact name path _ => ∀ img directory p m, w.images[name]? = some img →
    imageWritePaths cfg { img with name } ".wim" = .ok (directory, p) → img.manifest = some m →
    Clear w (join directory path) ∧ join directory path ≠ p ∧
      join directory path ≠ join directory m.rootPath ∧
      (w.files (join directory m.rootPath) ≠ none →
        InPlace lib w.files { img with localPath := some directory })
  -- an image is declared to be ready only if its payload is in place
  | .status name body => ∀ img b, w.images[name]? = some img → body = some b →
    b.ready.getD img.ready = true →
    InPlace lib w.files { img with localPath := b.localPath <|> img.localPath }

/-! ### Steps -/

variable {lib : Lib} {cfg : Config} {w w' w₀ : World} {name : String}
variable {q directory : Path} {img : Image} {file : Option Upload}

theorem step_file {o : Files.Op} {r : Files.Res o} (h : step (.file o) w r = some w') :
    ∃ t, Files.step o w.files r = some t ∧ w' = { w with files := t } := by
  obtain ⟨t, ht, rfl⟩ := Option.map_eq_some_iff.mp h
  exact ⟨t, ht, rfl⟩

theorem step_get {r : Except Err Image} (h : step (.get name) w r = some w') :
    w' = w ∧ ∀ img, r = .ok img → ∃ img', w.images[name]? = some img' ∧ img = { img' with name } := by
  match r with
  | .ok img =>
    simp only [step] at h
    split at h
    · rename_i hfind
      refine ⟨(Option.some.inj h).symm, fun img₁ h₁ => ?_⟩
      cases h₁
      unfold World.find at hfind
      split at hfind
      · rename_i img' himg'
        exact ⟨img', himg', (Except.ok.inj hfind).symm⟩
      · cases hfind
    · cases h
  | .error .notFound =>
    simp only [step] at h
    split at h
    · exact ⟨(Option.some.inj h).symm, by simp⟩
    · cases h
  | .error (.msg text) => exact ⟨(Option.some.inj h).symm, by simp⟩
  | .error .alreadyExists | .error .hostNotFound | .error .conflict | .error .capacity =>
    cases h

theorem step_upsert {r : Except Err Unit} (h : step (.upsert img) w r = some w') :
    w' = w ∨ w' = { w with images := w.images.insert img.name img } := by
  match r with
  | .ok _ => exact Or.inr (Option.some.inj h).symm
  | .error (.msg text) => exact Or.inl (Option.some.inj h).symm
  | .error .notFound | .error .alreadyExists | .error .hostNotFound | .error .conflict
  | .error .capacity => cases h

/-! ### While files are written -/

/-- **Since `w₀` nothing was written but at clear paths.** -/
structure Within (w₀ w : World) : Prop where
  images : w.images = w₀.images
  files : ∀ q, ¬Clear w₀ q → w.files q = w₀.files q

theorem Within.refl : Within w w := ⟨rfl, fun _ _ => rfl⟩

/-- The payloads of ready images are not affected. -/
theorem Within.ready (h : Within w₀ w) (h₀ : ReadyInPlace lib w₀) : ReadyInPlace lib w := by
  intro n img himg hready
  rw [h.images] at himg
  obtain ⟨p, content, hp, hfile, hmatch⟩ := h₀ n img himg hready
  refine ⟨p, content, hp, ?_, hmatch⟩
  rw [h.files p fun hclear => hclear n img himg hready hp]
  exact hfile

section Rules

variable {α : Type} {Q : α → World → Prop} {o : Files.Op} {f : Files.Res o → Prog Res α}

/-- The rule for a call that writes at clear paths. -/
theorem Within.file_bind (h : Within w₀ w) (h₀ : ReadyInPlace lib w₀)
    (htouch : ∀ r q, o.Touches w.files r q → Clear w₀ q)
    (hf : ∀ r w', Within w₀ w' → Files.step o w.files r = some w'.files →
      Ensures step (ReadyInPlace lib) Q (f r) w') :
    Ensures step (ReadyInPlace lib) Q (Client.file o >>= f) w := by
  refine .perform_bind fun r w' hs => ?_
  obtain ⟨t, ht, rfl⟩ := step_file hs
  have hwithin : Within w₀ { w with files := t } := by
    refine ⟨h.images, fun q hq => ?_⟩
    exact (step_other ht fun hqt => hq (htouch r q hqt)).trans (h.files q hq)
  exact ⟨hwithin.ready h₀, hf r _ hwithin ht⟩

/-- The rule for a call that only looks at files. -/
theorem ReadyInPlace.looks_bind (h : ReadyInPlace lib w) (ho : o.Looks)
    (hf : ∀ r, Files.step o w.files r = some w.files → Ensures step (ReadyInPlace lib) Q (f r) w) :
    Ensures step (ReadyInPlace lib) Q (Client.file o >>= f) w := by
  refine .perform_bind fun r w' hs => ?_
  obtain ⟨t, ht, rfl⟩ := step_file hs
  obtain rfl := step_looks ht ho
  exact ⟨h, hf r ht⟩

/-- The rule for a record that is looked up. -/
theorem ReadyInPlace.get_bind {f : Except Err Image → Prog Res α} (h : ReadyInPlace lib w)
    (herror : ∀ e, Ensures step (ReadyInPlace lib) Q (f (.error e)) w)
    (hok : ∀ img, w.images[name]? = some img → Ensures step (ReadyInPlace lib) Q (f (.ok { img with name })) w) :
    Ensures step (ReadyInPlace lib) Q (Client.get name >>= f) w := by
  refine .perform_bind fun r w₁ hs => ?_
  obtain ⟨rfl, hfound⟩ := step_get hs
  rcases r with e | img
  · exact ⟨h, herror e⟩
  · obtain ⟨img', himg', rfl⟩ := hfound img rfl
    exact ⟨h, hok img' himg'⟩

end Rules

/-- **`publishOSImageFile` changes the link and nothing else.** -/
theorem publishOSImageFile_ensures {localPath : Path} (h₀ : ReadyInPlace lib w₀) (h : Within w₀ w)
    (hclear : ∀ q, PublishedAt cfg localPath q → Clear w₀ q) :
    Ensures step (ReadyInPlace lib) (fun _ w' => Within w₀ w' ∧
        ∀ q, ¬PublishedAt cfg localPath q → w'.files q = w.files q)
      (publishOSImageFile cfg localPath) w := by
  unfold publishOSImageFile
  have hsame : Within w₀ w ∧ ∀ q, ¬PublishedAt cfg localPath q → w.files q = w.files q :=
    ⟨h, fun _ _ => rfl⟩
  cases hdir : cfg.filesDir with
  | none => exact .pure hsame
  | some filesDir =>
  refine (h.ready h₀).looks_bind trivial fun r _ => ?_
  match r with
  | none | some .directory => exact .pure hsame
  | some (.file _) =>
  refine (h.ready h₀).looks_bind trivial fun made _ => ?_
  refine .ite (fun _ => .pure hsame) fun _ => ?_
  refine .ite (fun _ => .pure hsame) fun hne => ?_
  have hdst : PublishedAt cfg localPath (linkPath filesDir localPath) :=
    ⟨filesDir, hdir, hne, Or.inl rfl⟩
  have htmp : PublishedAt cfg localPath (suffixed (linkPath filesDir localPath) ".tmp") :=
    ⟨filesDir, hdir, hne, Or.inr rfl⟩
  -- each of the four calls is on one of the two paths
  have hcall : ∀ {o : Files.Op} {f : Files.Res o → Prog Res (Except Err Unit)} {w₁ : World},
      (Within w₀ w₁ ∧ ∀ q, ¬PublishedAt cfg localPath q → w₁.files q = w.files q) →
      (∀ r q, o.Touches w₁.files r q → PublishedAt cfg localPath q) →
      (∀ r w₂, (Within w₀ w₂ ∧ ∀ q, ¬PublishedAt cfg localPath q → w₂.files q = w.files q) →
        Ensures step (ReadyInPlace lib) (fun _ w' => Within w₀ w' ∧
          ∀ q, ¬PublishedAt cfg localPath q → w'.files q = w.files q) (f r) w₂) →
      Ensures step (ReadyInPlace lib) (fun _ w' => Within w₀ w' ∧
        ∀ q, ¬PublishedAt cfg localPath q → w'.files q = w.files q) (Client.file o >>= f) w₁ := by
    intro o f w₁ h₁ htouch hf
    refine h₁.1.file_bind h₀ (fun r q hq => hclear q (htouch r q hq)) fun r w₂ h₂ ht => hf r w₂ ⟨h₂, ?_⟩
    exact fun q hq => (step_other ht fun hqt => hq (htouch r q hqt)).trans (h₁.2 q hq)
  refine hcall hsame (fun _ q hq => hq ▸ htmp) fun _ w₁ h₁ => ?_
  refine hcall h₁ (fun _ q hq => hq ▸ htmp) fun linked w₂ h₂ => ?_
  refine .ite (fun _ => .pure h₂) fun _ => ?_
  refine hcall h₂ ?_ fun renamed w₃ h₃ => ?_
  · rintro - q (rfl | rfl)
    · exact htmp
    · exact hdst
  refine hcall h₃ (fun _ q hq => hq ▸ htmp) fun _ w₄ h₄ => ?_
  exact .ite (fun _ => .pure h₄) fun _ => .pure h₄

/-- The check of the Windows artifacts only looks, and finds a file for each of them if they are
said to be there. -/
theorem artifactsReady_ensures (h : ReadyInPlace lib w) {rels : List String} :
    Ensures step (ReadyInPlace lib) (fun ready w' => w' = w ∧ (ready = true → ∀ rel ∈ rels,
      w.files (join directory rel) ≠ none)) (artifactsReady directory rels) w := by
  induction rels with
  | nil => exact .pure ⟨rfl, fun _ rel hrel => absurd hrel (by simp)⟩
  | cons rel rest ih =>
    refine h.looks_bind trivial fun r ht => ?_
    cases r with
    | none => exact .pure ⟨rfl, fun hready => absurd hready (by simp)⟩
    | some size =>
    refine .ite (fun _ => .pure ⟨rfl, fun hready => absurd hready (by simp)⟩) fun _ => ?_
    refine ih.mono fun ready w' hQ => ⟨hQ.1, fun hready rel' hrel' => ?_⟩
    rcases List.mem_cons.mp hrel' with rfl | hrel'
    · intro hnone
      simp only [Files.step, hnone] at ht
      cases ht
    · exact hQ.2 hready rel' hrel'

/-! ### The record -/

theorem ReadyInPlace.upsert (h : ReadyInPlace lib w) (himg : img.ready = true → InPlace lib w.files img) :
    ReadyInPlace lib { w with images := w.images.insert img.name img } := by
  intro n img' himg' hready
  rcases Table.insert_cases himg' with ⟨-, rfl⟩ | ⟨-, himg'⟩
  · exact himg hready
  · exact h n img' himg' hready

/-- A path stays clear if the image that is stored has its payload elsewhere. -/
theorem Clear.upsert (h : Clear w q) (himg : img.ready = true → payloadOf img ≠ some q) :
    Clear { w with images := w.images.insert img.name img } q := by
  intro n img' himg' hready
  rcases Table.insert_cases himg' with ⟨-, rfl⟩ | ⟨-, himg'⟩
  · exact himg hready
  · exact h n img' himg' hready

/-- **`UpdateStatus` may make an image ready if its payload is in place.** -/
theorem updateStatus_ensures {ready : Bool} {localPath : Option Path} {errMsg : String}
    (h : ReadyInPlace lib w) (hready : ∀ img, w.images[name]? = some img → ready = true →
      InPlace lib w.files { img with localPath }) :
    Ensures step (ReadyInPlace lib) (fun _ w' => ReadyInPlace lib w' ∧ ∀ q, Clear w q →
        (∀ img, w.images[name]? = some img → ready = true →
          payloadOf { img with localPath } ≠ some q) → Clear w' q)
      (updateStatus name ready localPath errMsg) w := by
  refine h.get_bind (fun _ => .pure ⟨h, fun q hq _ => hq⟩) fun img' himg' => ?_
  refine .perform_bind fun now w₂ hs => ?_
  obtain rfl : w = w₂ := Option.some.inj hs
  refine ⟨h, ?_⟩
  refine .perform_bind fun r w₃ hs => ?_
  have hafter : ReadyInPlace lib w₃ ∧ ∀ q, Clear w q →
      (∀ img, w.images[name]? = some img → ready = true →
        payloadOf { img with localPath } ≠ some q) → Clear w₃ q := by
    rcases step_upsert hs with rfl | rfl
    · exact ⟨h, fun q hq _ => hq⟩
    · exact ⟨h.upsert fun hr => hready img' himg' hr,
        fun q hq hpayload => hq.upsert fun hr => hpayload img' himg' hr⟩
  refine ⟨hafter.1, ?_⟩
  rcases r with _ | _ <;> exact .pure hafter

/-! ### Payloads are written -/

variable {localPath p : Path} {content : List UInt8} {checksum ext : String} {img : Image}

/-- The payload is where `imageWritePaths` says. -/
theorem payloadOf_of_imageWritePaths (h : imageWritePaths cfg { img with name } ext = .ok (localPath, p)) :
    payloadOf { img with localPath := some localPath } = some p := by
  have hroot : manifestRootPath { img with localPath := some localPath } =
    manifestRootPath { img with name } := rfl
  unfold imageWritePaths at h
  simp only [payloadOf, hroot, Option.map_some]
  split at h
  · cases h
  · rename_i rel hrel
    obtain ⟨rfl, rfl⟩ := Prod.mk.inj (Except.ok.inj h)
    rw [hrel]
  · rename_i hnone
    obtain ⟨rfl, rfl⟩ := Prod.mk.inj (Except.ok.inj h)
    rw [hnone]

/-- What is written at a clear path without a link goes to a clear path. -/
theorem Clear.resolve {t : Tree} (hp : Clear w p) (hplain : t.Plain p) (hq : q = t.resolve p) :
    Clear w q := by
  rw [hq, hplain.resolve]
  exact hp

/-- A file that was copied as a whole is complete. -/
theorem copied {t t' : Tree} (hplain : t.Plain p)
    (ht : Files.step (.copy p content) t Written.done = some t') :
    t' p = some (.file content true) := by
  rw [← Option.some.inj ht, Tree.written, hplain.resolve, Tree.set_self]

/-- **A file that was written with its checksum is complete, and matches it.** -/
theorem writeImageFileWithChecksum_ensures (h₀ : ReadyInPlace lib w₀) (h : Within w₀ w)
    (hp : Clear w₀ p) (hplain : w.files.Plain p) :
    Ensures step (ReadyInPlace lib) (fun r w' => Within w₀ w' ∧ (r = .ok () →
        w'.files p = some (.file content true) ∧ matchesChecksum lib checksum content = true))
      (writeImageFileWithChecksum lib p content checksum) w := by
  refine h.file_bind h₀ (fun _ _ => hp.resolve hplain) fun created w₁ h₁ ht₁ => ?_
  have hplain₁ := hplain.step (by simp) (by simp) ht₁
  refine .ite (fun _ => .pure ⟨h₁, by simp⟩) fun _ => ?_
  refine h₁.file_bind h₀ (fun _ _ => hp.resolve hplain₁) fun r w₂ h₂ ht => ?_
  match r with
  | .cut _ | .failed =>
    exact (h₂.ready h₀).looks_bind trivial fun _ _ => .pure ⟨h₂, by simp⟩
  | .done =>
  have hfile := copied hplain₁ ht
  refine (h₂.ready h₀).looks_bind trivial fun closed _ => ?_
  refine .ite (fun _ => .pure ⟨h₂, by simp⟩) fun _ => ?_
  refine .ite (fun _ => .pure ⟨h₂, by simp⟩) fun hmatch => ?_
  exact .pure ⟨h₂, fun _ => ⟨hfile, by simpa using hmatch⟩⟩

/-- **A download takes the place of the payload when it is complete and matches its checksum.** -/
theorem storeDownload_ensures (h₀ : ReadyInPlace lib w₀) (h : Within w₀ w) (hp : Clear w₀ p)
    (htmp : Clear w₀ (suffixed p ".download")) (hplain : w.files.Plain (suffixed p ".download"))
    (hlinks : ∀ q, PublishedAt cfg localPath q → Clear w₀ q ∧ q ≠ p) :
    Ensures step (ReadyInPlace lib) (fun r w' => Within w₀ w' ∧ ∀ l, r = .ok l → l = localPath ∧
        w'.files p = some (.file content true) ∧ matchesChecksum lib checksum content = true)
      (storeDownload lib cfg localPath p content checksum) w := by
  refine (writeImageFileWithChecksum_ensures h₀ h htmp hplain).bind fun r w₁ h₁ => ?_
  match r with
  | .error _ => exact .pure ⟨h₁.1, by simp⟩
  | .ok _ =>
  obtain ⟨hwithin, hwritten⟩ := h₁
  obtain ⟨hfile, hmatch⟩ := hwritten rfl
  refine hwithin.file_bind h₀ ?_ fun renamed w₂ h₂ ht => ?_
  · rintro - q (rfl | rfl)
    · exact htmp
    · exact hp
  cases renamed with
  | false => exact .pure ⟨h₂, by simp⟩
  | true =>
  have hmoved : w₂.files p = some (.file content true) := by
    obtain ⟨x, hx, ht'⟩ := step_rename ht
    rw [ht', Tree.set_self, ← hx, hfile]
  refine (publishOSImageFile_ensures h₀ h₂ fun q hq => (hlinks q hq).1).bind fun r w₃ h₃ => ?_
  obtain ⟨h₃, hkept⟩ := h₃
  match r with
  | .error _ => exact .pure ⟨h₃, by simp⟩
  | .ok _ =>
    refine .pure ⟨h₃, fun l hl => ⟨(Except.ok.inj hl).symm, ?_, hmatch⟩⟩
    rw [hkept p fun hpublished => (hlinks p hpublished).2 rfl, hmoved]

/-- The paths that are written and linked in a download are clear. -/
structure DownloadClear (cfg : Config) (w : World) (localPath p : Path) : Prop where
  payload : Clear w p
  tmp : Clear w (suffixed p ".download")
  plain : w.files.Plain (suffixed p ".download")
  links : ∀ q, PublishedAt cfg localPath q → Clear w q ∧ q ≠ p

/-- **After a download that succeeded the payload is in place.** -/
theorem downloadURLImageFile_ensures (h : ReadyInPlace lib w)
    (hclear : ∀ scheme host path localPath p, lib.parseURL (trimSpace img.url) = some (scheme, host, path) →
      imageWritePaths cfg img (imageExtension path) = .ok (localPath, p) → DownloadClear cfg w localPath p) :
    Ensures step (ReadyInPlace lib) (fun r w' => Within w w' ∧ ∀ l, r = .ok l →
        InPlace lib w'.files { img with localPath := some l })
      (downloadURLImageFile lib cfg img) w := by
  have hw : Within w w := .refl
  refine .ite (fun _ => .pure ⟨hw, by simp⟩) fun _ => ?_
  split
  · exact .pure ⟨hw, by simp⟩
  rename_i scheme host path hurl
  refine .ite (fun _ => .pure ⟨hw, by simp⟩) fun _ => ?_
  refine .ite (fun _ => .pure ⟨hw, by simp⟩) fun _ => ?_
  split
  · exact .pure ⟨hw, by simp⟩
  rename_i localPath p hpaths
  have hpaths' := hclear scheme host path localPath p hurl hpaths
  refine h.looks_bind trivial fun made _ => ?_
  refine .ite (fun _ => .pure ⟨hw, by simp⟩) fun _ => ?_
  refine .perform_bind fun r w₁ hs => ?_
  obtain rfl : w = w₁ := Option.some.inj hs
  refine ⟨h, ?_⟩
  match r with
  | .error _ => exact .pure ⟨hw, by simp⟩
  | .ok (status, body) =>
  refine .ite (fun _ => .pure ⟨hw, by simp⟩) fun _ => ?_
  refine (storeDownload_ensures h hw hpaths'.payload hpaths'.tmp hpaths'.plain hpaths'.links).bind
    fun r w₂ h₂ => ?_
  refine h₂.1.file_bind h (fun _ q hq => hq ▸ hpaths'.tmp) fun _ w₃ h₃ ht => ?_
  refine .pure ⟨h₃, fun l hl => ?_⟩
  obtain ⟨rfl, hfile, hmatch⟩ := h₂.2 l hl
  refine ⟨p, body, payloadOf_of_imageWritePaths hpaths, ?_, hmatch⟩
  -- the temporary file is not the payload
  rw [step_other ht fun hq => suffixed_ne (by decide) (Eq.symm hq)]
  exact hfile

/-! ### Requests -/

/-- While files are written, the records are those from before. -/
theorem Within.find {img' : Image} (h : Within w₀ w) (hstored : w₀.images[name]? = some img)
    (himg' : w.images[name]? = some img') : img' = img :=
  Option.some.inj (himg'.symm.trans (h.images ▸ hstored))

theorem downloadURLImage_ensures (h : ReadyInPlace lib w) (hstored : w.images[img.name]? = some img)
    (hclear : ∀ scheme host path localPath p, lib.parseURL (trimSpace img.url) = some (scheme, host, path) →
      imageWritePaths cfg img (imageExtension path) = .ok (localPath, p) → DownloadClear cfg w localPath p) :
    Ensures step (ReadyInPlace lib) (fun _ _ => True) (downloadURLImage lib cfg img) w := by
  refine (downloadURLImageFile_ensures h hclear).bind fun r w₁ h₁ => ?_
  have hready := h₁.1.ready h
  match r with
  | .error e =>
    refine (updateStatus_ensures hready (by simp)).bind fun r w₂ _ => ?_
    rcases r with _ | _ <;> exact .pure trivial
  | .ok localPath =>
    refine (artifactsReady_ensures hready).bind fun ready w₂ h₂ => ?_
    obtain ⟨rfl, -⟩ := h₂
    refine (updateStatus_ensures hready ?_).bind fun r w₃ _ => ?_
    · intro img' himg' _
      obtain rfl := h₁.1.find hstored himg'
      exact h₁.2 localPath rfl
    · rcases r with _ | _ <;> exact .pure trivial

/-- What is free for an image is clear as long as the image is not ready. -/
theorem Free.clear (h : Free w img.name q) (himg : img.ready = false) :
    Clear { w with images := w.images.insert img.name img } q := by
  intro n img' himg' hready
  rcases Table.insert_cases himg' with ⟨-, rfl⟩ | ⟨hn, himg'⟩
  · cases himg.symm.trans hready
  · exact h n img' himg' hn.symm hready

/-- **A record is stored as not ready**, with what it says of its payload. -/
theorem create_ensures (h : ReadyInPlace lib w) (himg : img.ready = false) :
    Ensures step (ReadyInPlace lib) (fun r w' => ∀ created, r = .ok created → ReadyInPlace lib w' ∧
        w'.images[created.name]? = some created ∧ created.name = img.name ∧
        created.manifest = img.manifest ∧ created.url = img.url ∧ w'.files = w.files ∧
        ∀ q, Free w img.name q → Clear w' q)
      (create img) w := by
  refine .perform_bind fun now w₁ hs => ?_
  obtain rfl : w = w₁ := Option.some.inj hs
  refine ⟨h, ?_⟩
  dsimp only
  split
  · exact .pure (by simp)
  have hready : (img.preparedForCreate now).ready = false := himg
  have hname : (img.preparedForCreate now).name = img.name := rfl
  have hmanifest : (img.preparedForCreate now).manifest = img.manifest := rfl
  have hurl : (img.preparedForCreate now).url = img.url := rfl
  generalize img.preparedForCreate now = created at hready hname hmanifest hurl ⊢
  have hsound : ReadyInPlace lib { w with images := w.images.insert created.name created } :=
    h.upsert fun hr => absurd (hready.symm.trans hr) (by simp)
  refine .perform_bind fun r w₂ hs => ?_
  match r with
  | .error _ =>
    rcases step_upsert hs with rfl | rfl
    · exact ⟨h, .pure (by simp)⟩
    · exact ⟨hsound, .pure (by simp)⟩
  | .ok _ =>
    cases hs
    refine ⟨hsound, .pure fun created' hcreated => ?_⟩
    cases hcreated
    refine ⟨hsound, by rw [Table.get_insert, if_pos rfl], hname, hmanifest, hurl, rfl, fun q hq => ?_⟩
    rw [← hname] at hq
    exact hq.clear hready

theorem createOSImage_ensures {body : Option Image} (h : ReadyInPlace lib w)
    (hcareful : Careful lib cfg w (.create body)) :
    Ensures step (ReadyInPlace lib) (fun _ _ => True) (createOSImage lib cfg body) w := by
  cases body with
  | none => exact .pure trivial
  | some img =>
  have hfree := fun scheme host path localPath p => hcareful img scheme host path localPath p rfl
  unfold createOSImage
  dsimp only
  -- how the name of a resource is made does not matter
  generalize resourceID "osImages" img.name = name at hfree ⊢
  refine (create_ensures h rfl).bind fun r w₁ h₁ => ?_
  match r with
  | .error _ => exact .pure trivial
  | .ok created =>
  refine .ite (fun _ => ?_) fun _ => .pure trivial
  obtain ⟨hsound, hstored, hname, hmanifest, hurl, hfiles, hclear⟩ := h₁ created rfl
  refine (downloadURLImage_ensures hsound hstored ?_).bind fun _ _ _ => .pure trivial
  intro scheme host path localPath p hparse hpaths
  rw [hurl] at hparse
  have hsame : imageWritePaths cfg { img with name } (imageExtension path) = .ok (localPath, p) := by
    rw [← hpaths]
    simp only [imageWritePaths, manifestRootPath, hname, hmanifest]
  obtain ⟨hp, htmp, hplain, hlinks⟩ := hfree scheme host path localPath p hparse hsame
  exact ⟨hclear p hp, hclear _ htmp, hfiles ▸ hplain,
    fun q hq => ⟨hclear q (hlinks q hq).1, (hlinks q hq).2⟩⟩

theorem uploadOSImage_ensures (h : ReadyInPlace lib w) (hcareful : Careful lib cfg w (.upload name file)) :
    Ensures step (ReadyInPlace lib) (fun _ _ => True) (uploadOSImage cfg name file) w := by
  refine h.get_bind (fun e => by cases e <;> exact .pure trivial) fun img' himg' => ?_
  refine .ite (fun _ => .pure trivial) fun _ => ?_
  cases file with
  | none => exact .pure trivial
  | some file =>
  dsimp only
  split
  · exact .pure trivial
  rename_i localPath p hpaths
  obtain ⟨hp, hplain, hlinks, hmatch⟩ := hcareful img' file localPath p himg' rfl hpaths
  have hw : Within w w := .refl
  refine h.looks_bind trivial fun made _ => ?_
  refine .ite (fun _ => .pure trivial) fun _ => ?_
  refine hw.file_bind h (fun _ _ => hp.resolve hplain) fun created w₂ h₂ ht₂ => ?_
  have hplain₂ := hplain.step (by simp) (by simp) ht₂
  refine .ite (fun _ => .pure trivial) fun _ => ?_
  refine .perform_bind fun opened w₃ hs => ?_
  obtain rfl : w₂ = w₃ := Option.some.inj hs
  refine ⟨h₂.ready h, ?_⟩
  refine .ite (fun _ => .pure trivial) fun _ => ?_
  refine h₂.file_bind h (fun _ _ => hp.resolve hplain₂) fun r w₄ h₄ ht => ?_
  match r with
  | .cut _ | .failed => exact .pure trivial
  | .done =>
  have hfile := copied hplain₂ ht
  refine (publishOSImageFile_ensures h h₄ fun q hq => (hlinks q hq).1).bind fun r w₅ h₅ => ?_
  obtain ⟨h₅, hkept⟩ := h₅
  match r with
  | .error _ => exact .pure trivial
  | .ok _ =>
  refine (artifactsReady_ensures (h₅.ready h)).bind fun ready w₆ h₆ => ?_
  obtain ⟨rfl, -⟩ := h₆
  refine (updateStatus_ensures (h₅.ready h) ?_).bind fun r w₇ _ => ?_
  · intro img hstored _
    obtain rfl := h₅.find himg' hstored
    refine ⟨p, file.content, payloadOf_of_imageWritePaths hpaths, ?_, hmatch⟩
    rw [hkept p fun hpublished => (hlinks p hpublished).2 rfl, hfile]
  · rcases r with _ | _ <;> exact .pure trivial

theorem updateOSImageStatus_ensures {body : Option StatusReq} (h : ReadyInPlace lib w)
    (hcareful : Careful lib cfg w (.status name body)) :
    Ensures step (ReadyInPlace lib) (fun _ _ => True) (updateOSImageStatus name body) w := by
  cases body with
  | none => exact .pure trivial
  | some body =>
  refine h.get_bind (fun e => by cases e <;> exact .pure trivial) fun img' himg' => ?_
  refine .bind (Q := fun _ w' => w' = w) ?_ fun checked w₂ h₂ => ?_
  · refine .ite (fun _ => ?_) fun _ => .pure rfl
    exact (artifactsReady_ensures h).mono fun _ _ hQ => hQ.1
  obtain rfl := h₂
  refine .ite (fun _ => .pure trivial) fun _ => ?_
  refine (updateStatus_ensures h ?_).bind fun r w₃ _ => ?_
  · intro img hstored hready
    rw [himg'] at hstored
    cases hstored
    exact hcareful img' body himg' rfl hready
  · rcases r with _ | _ <;> exact .pure trivial

theorem Within.clear (h : Within w₀ w) (hq : Clear w₀ q) : Clear w q := by
  intro n img himg
  rw [h.images] at himg
  exact hq n img himg

/-- A path at which there is no file is clear. -/
theorem ReadyInPlace.clear (h : ReadyInPlace lib w) (hq : w.files q = none) : Clear w q := by
  rintro n img himg hready hp
  obtain ⟨p', content, hp', hfile, -⟩ := h n img himg hready
  obtain rfl := Option.mem_unique hp' hp
  cases hq.symm.trans hfile

/-- **A boot file that is stored affects no payload.** If the image becomes ready, then the payload was
in place before. -/
theorem storeArtifact_ensures {m : Manifest} {destination tmp : Path} (h₀ : ReadyInPlace lib w₀)
    (h : Within w₀ w) (hstored : w₀.images[name]? = some img) (hmanifest : img.manifest = some m)
    (hwindows : m.windows = true) (htmp : w₀.files tmp = none) (hplain : w.files.Plain tmp)
    (hother : ∀ q, q ≠ tmp → w.files q = w₀.files q) (hdest : Clear w₀ destination)
    (hroot : destination ≠ join directory m.rootPath)
    (hplace : w₀.files (join directory m.rootPath) ≠ none → ∃ p content,
      payloadOf { img with localPath := some directory } = some p ∧ p ≠ destination ∧
      w₀.files p = some (.file content true) ∧ matchesChecksum lib img.checksum content = true) :
    Ensures step (ReadyInPlace lib) (fun _ w' => ReadyInPlace lib w' ∧ Clear w' tmp)
      (storeArtifact { img with name } directory destination tmp content) w := by
  have hclear : Clear w₀ tmp := h₀.clear htmp
  refine h.file_bind h₀ (fun _ _ => hclear.resolve hplain) fun (written : Written) w₁ h₁ ht₁ => ?_
  have hsound₁ : ReadyInPlace lib w₁ ∧ Clear w₁ tmp := ⟨h₁.ready h₀, h₁.clear hclear⟩
  refine hsound₁.1.looks_bind trivial fun (closed : Bool) _ => ?_
  refine .ite (fun _ => .pure hsound₁) fun _ => ?_
  refine .ite (fun _ => .pure hsound₁) fun _ => ?_
  refine h₁.file_bind h₀ ?_ fun renamed w₂ h₂ ht₂ => ?_
  · rintro - q (rfl | rfl)
    · exact hclear
    · exact hdest
  have hsound₂ : ReadyInPlace lib w₂ ∧ Clear w₂ tmp := ⟨h₂.ready h₀, h₂.clear hclear⟩
  cases renamed with
  | false => exact .pure hsound₂
  | true =>
  -- only the boot file is another one now
  have hsame : ∀ q, q ≠ tmp → q ≠ destination → w₂.files q = w₀.files q := by
    intro q hqt hqd
    rw [step_other ht₂ fun hq => hq.elim hqt hqd, step_other ht₁ fun hq => hqt ?_, hother q hqt]
    exact Eq.trans hq hplain.resolve
  have hgone : tmp ≠ destination → w₂.files tmp = none := by
    intro hne
    obtain ⟨x, -, ht⟩ := step_rename ht₂
    rw [ht, Tree.set_of_ne _ hne, Tree.set_self]
  refine (artifactsReady_ensures hsound₂.1).bind fun ready w₃ h₃ => ?_
  obtain ⟨rfl, hfound⟩ := h₃
  -- if the payload is found, then it was there before
  have hthere : ready = true → w₀.files (join directory m.rootPath) ≠ none := by
    intro hready
    have hpayload := hfound hready m.rootPath (by simp [Image.windowsArtifacts, hmanifest, hwindows])
    rwa [← hsame _ (fun heq => ?_) (Ne.symm hroot)]
    rw [heq] at hpayload hroot
    exact hpayload (hgone (Ne.symm hroot))
  have hne : ∀ {p : Path} {content}, w₀.files p = some (.file content true) → p ≠ tmp := by
    rintro p content hp rfl
    cases htmp.symm.trans hp
  refine (updateStatus_ensures hsound₂.1 ?_).bind fun r w₄ h₄ => ?_
  · intro img' himg' hready
    obtain rfl := h₂.find hstored himg'
    obtain ⟨p, content, hp, hpd, hfile, hmatch⟩ := hplace (hthere hready)
    exact ⟨p, content, hp, (hsame p (hne hfile) hpd).trans hfile, hmatch⟩
  · have hclear₄ : Clear w₄ tmp := by
      refine h₄.2 tmp hsound₂.2 fun img' himg' hready hpayload => ?_
      obtain rfl := h₂.find hstored himg'
      obtain ⟨p, content, hp, -, hfile, -⟩ := hplace (hthere hready)
      exact hne hfile (Option.mem_unique hp hpayload)
    rcases r with _ | _ <;> exact .pure ⟨h₄.1, hclear₄⟩

theorem uploadOSImageArtifact_ensures {path : String} (h : ReadyInPlace lib w)
    (hcareful : Careful lib cfg w (.artifact name path file)) :
    Ensures step (ReadyInPlace lib) (fun _ _ => True) (uploadOSImageArtifact cfg name path file) w := by
  refine h.get_bind (fun _ => .pure trivial) fun img' himg' => ?_
  refine .ite (fun _ => .pure trivial) fun hwindows => ?_
  refine .ite (fun _ => .pure trivial) fun _ => ?_
  split
  · exact .pure trivial
  rename_i directory p hpaths
  obtain ⟨m, hmanifest, hm⟩ : ∃ m, img'.manifest = some m ∧ m.windows = true := by
    have hhas : img'.hasWindows = true := by simpa [Image.hasWindows] using (not_or.mp hwindows).1
    exact (Option.any_eq_true _ _).mp hhas
  obtain ⟨hdest, hdp, hroot, hplace⟩ := hcareful img' directory p m himg' hpaths hmanifest
  refine h.looks_bind trivial fun made _ => ?_
  refine .ite (fun _ => .pure trivial) fun _ => ?_
  cases file with
  | none => exact .pure trivial
  | some file =>
  refine .perform_bind fun opened w₂ hs => ?_
  obtain rfl : w = w₂ := Option.some.inj hs
  refine ⟨h, ?_⟩
  refine .ite (fun _ => .pure trivial) fun _ => ?_
  refine .perform_bind fun r w₃ hs => ?_
  obtain ⟨t, ht, rfl⟩ := step_file hs
  cases r with
  | none =>
    cases ht
    exact ⟨h, .pure trivial⟩
  | some tmp =>
  obtain ⟨htmp, rfl⟩ := step_createTemp ht
  have hwithin : Within w { w with files := w.files.set tmp (some (.file [] false)) } := by
    refine ⟨rfl, fun q hq => Tree.set_of_ne _ (fun heq => ?_) _⟩
    exact hq (heq ▸ h.clear htmp)
  refine ⟨hwithin.ready h, ?_⟩
  refine (storeArtifact_ensures h hwithin himg' hmanifest hm htmp (by simp [Tree.Plain])
    (fun q hq => Tree.set_of_ne _ hq _) hdest hroot fun hfile => ?_).bind fun _ w₄ h₄ => ?_
  · obtain ⟨p', content, hp', hfile, hmatch⟩ := hplace hfile
    refine ⟨p', content, hp', ?_, hfile, hmatch⟩
    obtain rfl := Option.some.inj (hp'.symm.trans (payloadOf_of_imageWritePaths hpaths))
    exact Ne.symm hdp
  refine Within.refl.file_bind h₄.1 ?_ fun _ _ _ _ => Ensures.pure trivial
  intro _ q hq
  rw [show q = tmp from hq]
  exact h₄.2

/-! ### Runs -/

/-- **A careful request keeps ready images in place**, at every point at which it may be cut off. -/
theorem ReadyInPlace.step {c : Call} (h : ReadyInPlace lib w)
    (hstep : Under (CallStep lib cfg) (Careful lib cfg) w c w') : ReadyInPlace lib w' := by
  obtain ⟨hreach, hcareful⟩ := hstep
  cases c with
  | create body => exact (createOSImage_ensures h hcareful).reaches h hreach
  | upload name file => exact (uploadOSImage_ensures h hcareful).reaches h hreach
  | artifact name path file => exact (uploadOSImageArtifact_ensures h hcareful).reaches h hreach
  | status name body => exact (updateOSImageStatus_ensures h hcareful).reaches h hreach

/-- **A ready image matches its checksum.** In every state that careful requests lead to from an empty
catalogue, each of them cut off at any point, the payload of an image that is ready is a complete
file, and is what the checksum says if there is one. -/
theorem ready_matches {calls : List Call} (hempty : w.images = ∅)
    (hrun : Steps (Under (CallStep lib cfg) (Careful lib cfg)) w calls w') : ReadyInPlace lib w' := by
  have hready : ReadyInPlace lib w := by
    intro n img himg
    rw [hempty] at himg
    cases himg
  exact hrun.invariant (fun hstep h => h.step hstep) hready

/-! ### Uploads -/

/-- A library that knows the digests of two files. -/
def sampleLib : Lib where
  sha256 content :=
    if content = [0] then
      [110, 52, 11, 156, 255, 179, 122, 152, 156, 165, 68, 230, 187, 120, 10, 44,
        120, 144, 29, 63, 179, 55, 56, 118, 133, 17, 163, 6, 23, 175, 160, 29]
    else
      [75, 245, 18, 47, 52, 69, 84, 197, 59, 222, 46, 187, 140, 210, 183, 227,
        209, 96, 10, 214, 49, 195, 133, 165, 215, 204, 226, 60, 119, 133, 69, 154]
  parseURL _ := none

/-- Payloads are stored in `/images`, and linked in `/files/images`. -/
def sampleConfig : Config where
  storageDir := ["images"]
  filesDir := some ["files"]

/-- An image for virtual machines, with the checksum of a file of one byte, which is 0. -/
def disk : Image where
  name := "disk"
  osFamily := "debian"
  osVersion := "13"
  format := .qcow2
  variant := .cloud
  source := .upload
  checksum := "6e340b9cffb37a989ca544e6bb780a2c78901d3fb33738768511a30617afa01d"

/-- The path of its payload. -/
def diskPath : Path := ["images", "disk.qcow2"]

/-- An upload of one byte. -/
def byteUpload (b : UInt8) : Call := .upload "disk" (some ⟨"disk.qcow2", [b]⟩)

/-- The replies of an undisturbed system, in which a copy ends as given. -/
def World.answer (copied : Written) (o : Op) (w : World) : Res o :=
  match o with
  | .get name => w.find name
  | .upsert _ => .ok ()
  | .now => (0 : Time)
  | .file (.copy _ _) => copied
  | .file o => w.files.grant o
  | .fetch _ => .error .notFound
  | .openUpload => true

/-- A request to such a system. -/
def serve (w : World) (c : Call × Written) : Option World :=
  (evaluate step (World.answer c.2) (c.1.prog sampleLib sampleConfig) w).map (·.2)

theorem CallStep.of_serve {c : Call × Written} (h : serve w c = some w') :
    CallStep sampleLib sampleConfig w c.1 w' := by
  obtain ⟨x, hx, rfl⟩ := Option.map_eq_some_iff.mp h
  exact .of_evaluate hx

/-- The image is ready, and what it has for a payload is not complete, or is another file. -/
def misplaced (name : String) (w : World) : Bool :=
  w.images[name]?.any fun img => img.ready && (payloadOf img).any fun p =>
    match w.files p with
    | some (.file content whole) => !whole || !matchesChecksum sampleLib img.checksum content
    | _ => true

theorem not_readyInPlace_of_misplaced (h : misplaced name w = true) : ¬ReadyInPlace sampleLib w := by
  intro hplace
  obtain ⟨img, himg, h⟩ := (Option.any_eq_true _ _).mp h
  obtain ⟨hready, h⟩ := Bool.and_eq_true_iff.mp h
  obtain ⟨p, content, hp, hfile, hmatch⟩ := hplace name img himg hready
  simp [hp, hfile, hmatch] at h

/-- The image is created and its payload is uploaded; a second upload is cut off. Or another file is
uploaded in the first place. -/
theorem disk_plays :
    ((serve {} (.create (some disk), .done)).any fun w₁ =>
      (w₁.images.toList.all fun kv => !kv.2.ready && kv.2.manifest.isNone &&
        decide (kv.2.checksum = disk.checksum)) && decide (w₁.files diskPath = none) &&
      ((serve w₁ (byteUpload 0, .done)).any fun w₂ => (w₂.images["disk"]?.any (·.ready)) &&
        (serve w₂ (byteUpload 0, .cut 0)).any (misplaced "disk")) &&
      (serve w₁ (byteUpload 1, .done)).any (misplaced "disk")) = true := by
  decide

/-- The runs of `Gomi.Images.disk_plays`. -/
theorem disk_runs : ∃ w₁, CallStep sampleLib sampleConfig {} (.create (some disk)) w₁ ∧
    (∀ (n : String) (img : Image), w₁.images[n]? = some img →
      img.ready = false ∧ img.manifest = none ∧ img.checksum = disk.checksum) ∧
    w₁.files diskPath = none ∧
    (∃ w₂, CallStep sampleLib sampleConfig w₁ (byteUpload 0) w₂ ∧
      w₂.images["disk"]?.any (·.ready) = true ∧
      ∃ w₃, CallStep sampleLib sampleConfig w₂ (byteUpload 0) w₃ ∧ misplaced "disk" w₃ = true) ∧
    ∃ w₂, CallStep sampleLib sampleConfig w₁ (byteUpload 1) w₂ ∧ misplaced "disk" w₂ = true := by
  obtain ⟨w₁, h₁, hcheck⟩ := (Option.any_eq_true _ _).mp disk_plays
  simp only [Bool.and_eq_true, decide_eq_true_eq, Option.any_eq_true _ (serve _ _)] at hcheck
  obtain ⟨⟨⟨hfresh, hnone⟩, w₂, h₂, hready, w₃, h₃, hcut⟩, w₂', h₂', hother⟩ := hcheck
  refine ⟨w₁, .of_serve h₁, fun n img himg => ?_, hnone,
    ⟨w₂, .of_serve h₂, hready, w₃, .of_serve h₃, hcut⟩, w₂', .of_serve h₂', hother⟩
  simpa [and_assoc] using List.all_eq_true.mp hfresh (n, img) (Table.mem_toList.mpr himg)

/-- An image is created, and its payload is uploaded. -/
theorem disk_uploaded : ∃ w', Steps (Under (CallStep sampleLib sampleConfig)
      (Careful sampleLib sampleConfig)) {} [.create (some disk), byteUpload 0] w' ∧
    w'.images["disk"]?.any (·.ready) = true ∧ ReadyInPlace sampleLib w' := by
  obtain ⟨w₁, h₁, hfresh, hnone, ⟨w₂, h₂, hready, -⟩, -⟩ := disk_runs
  have hclear : ∀ q, Clear w₁ q :=
    fun q n img himg hr => absurd ((hfresh n img himg).1.symm.trans hr) (by simp)
  have hrun : Steps (Under (CallStep sampleLib sampleConfig) (Careful sampleLib sampleConfig)) {}
      [.create (some disk), byteUpload 0] w₂ := by
    refine Steps.cons ⟨h₁, ?_⟩ (Steps.cons ⟨h₂, ?_⟩ (Steps.nil _))
    · intro img scheme host path localPath p _ hurl
      cases hurl
    · intro img f localPath p himg hf hpaths
      cases hf
      obtain ⟨-, hmanifest, hchecksum⟩ := hfresh "disk" img himg
      obtain ⟨rfl, rfl⟩ : diskPath = localPath ∧ diskPath = p := by
        simp only [imageWritePaths, manifestRootPath, hmanifest] at hpaths
        exact Prod.mk.inj (Except.ok.inj hpaths)
      refine ⟨hclear _, fun target hlink => ?_, ?_, ?_⟩
      · rw [hnone] at hlink
        cases hlink
      · rintro q ⟨filesDir, hdir, -, hq⟩
        cases hdir
        refine ⟨hclear q, ?_⟩
        rcases hq with rfl | rfl <;> decide
      · rw [hchecksum]
        decide
  exact ⟨w₂, hrun, hready, ready_matches rfl hrun⟩

/-- **Uploads are not checked.** A file of another digest makes an image ready, and an upload that is
cut off leaves half a payload in the place of a ready image. -/
theorem upload_unchecked :
    (∃ w', Steps (CallStep sampleLib sampleConfig) {} [.create (some disk), byteUpload 1] w' ∧
      ¬ReadyInPlace sampleLib w') ∧
    ∃ w', Steps (CallStep sampleLib sampleConfig) {}
      [.create (some disk), byteUpload 0, byteUpload 0] w' ∧ ¬ReadyInPlace sampleLib w' := by
  obtain ⟨w₁, h₁, -, -, ⟨w₂, h₂, -, w₃, h₃, hcut⟩, w₂', h₂', hother⟩ := disk_runs
  constructor
  · exact ⟨w₂', .cons h₁ (.cons h₂' (.nil _)), not_readyInPlace_of_misplaced hother⟩
  · exact ⟨w₃, .cons h₁ (.cons h₂ (.cons h₃ (.nil _))), not_readyInPlace_of_misplaced hcut⟩

end Gomi.Images
