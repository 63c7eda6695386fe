import Gomi.Volumes.Agent

/-!
# Whose file it is

The disk of a virtual machine `n` is `n.qcow2` and its seed `n-cidata.raw`; an image has a backing
volume, and a copy of the agent's. All of these are names that are put together from the names of
virtual machines and images, which can be any texts, so a file may be two of these at once.
`Gomi.Volumes.ReadBack` says that libvirt reads the names as they were written, and
`Gomi.Volumes.Apart` when names keep their files apart. What follows from it is said once
here, about names alone: no file that is handled as one of virtual machine `n` is somebody
else's (`Gomi.Volumes.Apart.not_foreign`), and no file of the agent's is a disk or a seed
(`Gomi.Volumes.Apart.copy_not_ofVM`).

Two names with different ends are different, and that settles nearly every pair; the rest is what
`Gomi.Volumes.Apart` has to ask for.
-/

namespace Gomi.Volumes

open Go
open Vm (VirtualMachine)

variable {hash : Hashing} {vms : Set String} {images : List Image} {n m f g : String} {img : Image}
variable {c name a : String}

/-! ### Files -/

/-- The disk of a virtual machine. -/
def disk (n : String) : String := n ++ ".qcow2"

/-- The seed of a virtual machine. -/
def seed (n : String) : String := noCloudSeedVolumeFileName n

/-- The backing volume of an image. An image has none if no virtual machine can be made from it:
references are trimmed, and libvirt stores no image of a URL under a name with a slash. -/
def backingFile (hash : Hashing) (img : Image) : Option String :=
  if trimSpace img.name = img.name ∧ (resolveBacking img.name img).toOption.isSome ∧
      (trimSpace img.url ≠ "" → VolumeName (cloudImageURLVolumeBaseName hash img "qcow2")) then
    fileIn hypervisorImageDir (backingPathOf hash img "qcow2")
  else none

/-- The file is the disk or the seed of a virtual machine. -/
def OfVM (vms : Set String) (f : String) : Prop := ∃ m ∈ vms, f = disk m ∨ f = seed m

/-- The file is somebody else's than virtual machine `n`'s: another disk or seed, or a backing
volume. -/
def Foreign (hash : Hashing) (vms : Set String) (images : List Image) (n f : String) : Prop :=
  OfVM {m ∈ vms | m ≠ n} f ∨ ∃ img ∈ images, backingFile hash img = some f

/-- The volumes of a virtual machine: its disk and its seed, under every name that they are looked
for. -/
def volumesOf (n : String) : List String := candidates n ++ candidates (noCloudSeedVolumeName n)

/-- The virtual machine is made from the image, which is fetched from its URL. -/
structure Fetched (images : List Image) (v : VirtualMachine) (img : Image) : Prop where
  curtin : Vm.resolveInstallType v = .curtin
  mem : img ∈ images
  name : img.name = trimSpace v.osImageRef
  resolved : (resolveBacking img.name img).toOption.isSome
  url : trimSpace img.url ≠ ""

/-- The file is the copy of an image that is ready. -/
def Copy (images : List Image) (f : String) : Prop :=
  ∃ img ∈ images, img.ready = true ∧ destPath (syncedImageFilename img) = some f

/-- **Names that libvirt reads as they were written**: they have the characters of XML, and a disk is
read under its name also where the name is not escaped. -/
structure ReadBack (raw : String → Option String) (hash : Hashing) (vms : Set String)
    (images : List Image) : Prop where
  names : ∀ n ∈ vms, xmlText n = n
  overlays : ∀ n ∈ vms, raw (disk n) = some (disk n)
  uploads : ∀ img ∈ images, trimSpace img.url ≠ "" →
    xmlText (cloudImageURLVolumeBaseName hash img "qcow2") = cloudImageURLVolumeBaseName hash img "qcow2"

/-- **Names that keep volumes apart.** Of the virtual machines whose names can be names of volumes,
none is called like the seed of another, and none has a name that looks like a file; no image has
a backing volume that is called like a disk, or like one of a virtual machine that is called like a
seed; and no image that is ready has a copy that is called like a disk. -/
structure Apart (hash : Hashing) (vms : Set String) (images : List Image) : Prop where
  seeds : ∀ n ∈ vms, VolumeName n → noCloudSeedVolumeName n ∉ vms
  disks : ∀ n ∈ vms, VolumeName n → hasSuffix n ".qcow2" = false
  backing : ∀ n ∈ vms, ∀ img ∈ images, backingFile hash img ≠ some (disk n) ∧
    backingFile hash img ≠ some (disk (noCloudSeedVolumeName n))
  copies : ∀ n ∈ vms, ¬Copy images (disk n)

/-! ### Documents -/

theorem xmlText_append {s t : String} : xmlText (s ++ t) = xmlText s ++ xmlText t := by
  simp [xmlText]

/-- The name of a volume is read back if what stands before its end is. -/
theorem xmlText_append_eq {s t : String} (hs : xmlText s = s) (ht : xmlText t = t) :
    xmlText (s ++ t) = s ++ t := by
  rw [xmlText_append, hs, ht]

/-! ### Disks and seeds -/

theorem seed_eq : seed n = n ++ "-cidata.raw" := by
  rw [seed, noCloudSeedVolumeFileName, noCloudSeedVolumeName, String.append_assoc]
  rfl

variable {t : String}

/-- A file that ends in neither `.qcow2` nor `.raw` is no disk and no seed. -/
theorem not_ofVM_append
    (hdisk : t.toList.isSuffixOf ".qcow2".toList = false ∧ ".qcow2".toList.isSuffixOf t.toList = false)
    (hseed : t.toList.isSuffixOf "-cidata.raw".toList = false ∧
      "-cidata.raw".toList.isSuffixOf t.toList = false) : ¬OfVM vms (c ++ t) := by
  rintro ⟨m, -, hm | hm⟩
  · exact append_ne_append c m hdisk.1 hdisk.2 hm
  · rw [seed_eq] at hm
    exact append_ne_append c m hseed.1 hseed.2 hm

/-- Which file ending in `.qcow2` is a disk or a seed. -/
theorem ofVM_qcow2 : OfVM vms (n ++ ".qcow2") ↔ n ∈ vms := by
  constructor
  · rintro ⟨m, hm, h | h⟩
    · rwa [append_right_cancel ".qcow2" h]
    · rw [seed_eq] at h
      exact absurd h (append_ne_append n m (by decide) (by decide))
  · intro hn
    exact ⟨n, hn, .inl rfl⟩

/-- Which file ending in `.raw` is a disk or a seed. -/
theorem ofVM_raw : OfVM vms (n ++ ".raw") ↔ ∃ m ∈ vms, n = noCloudSeedVolumeName m := by
  constructor
  · rintro ⟨m, hm, h | h⟩
    · exact absurd h (append_ne_append n m (by decide) (by decide))
    · exact ⟨m, hm, append_right_cancel ".raw" h⟩
  · rintro ⟨m, hm, rfl⟩
    exact ⟨m, hm, .inr rfl⟩

theorem ofVM_cidata : OfVM vms (n ++ "-cidata.raw") ↔ n ∈ vms := by
  rw [← seed_eq, seed, noCloudSeedVolumeFileName, ofVM_raw]
  constructor
  · rintro ⟨m, hm, h⟩
    rwa [append_right_cancel "-cidata" h]
  · intro hn
    exact ⟨n, hn, rfl⟩

/-- What stands before the end of a volume's name can be one itself. -/
theorem VolumeName.of_append (h : VolumeName (n ++ t)) : VolumeName n := by
  intro hslash
  exact h (by simp [hslash])

theorem VolumeName.append (h : VolumeName n) (ht : VolumeName t) : VolumeName (n ++ t) := by
  rw [VolumeName, String.toList_append, List.mem_append]
  rintro (hn | hn)
  · exact h hn
  · exact ht hn

/-! ### Backing volumes -/

theorem ending_qcow2 : Ending ".qcow2" := ending_of_length (by decide) (by decide)

theorem volumeFileName_qcow2 : volumeFileName name "qcow2" =
    if hasSuffix name ".qcow2" then name else name ++ ".qcow2" := rfl

/-- The name of a file has the end of its format. -/
theorem exists_stem : ∃ stem, volumeFileName name "qcow2" = stem ++ ".qcow2" := by
  rw [volumeFileName_qcow2]
  split
  · rename_i h
    obtain ⟨stem, hstem⟩ := List.isSuffixOf_iff_suffix.mp h
    refine ⟨String.ofList stem, String.toList_injective ?_⟩
    rw [String.toList_append, String.toList_ofList, hstem]
  · exact ⟨name, rfl⟩

/-- **A backing volume ends in `.qcow2`**, and its name can be one of a volume. -/
theorem backingFile_append (h : backingFile hash img = some f) :
    ∃ c, VolumeName c ∧ f = c ++ ".qcow2" := by
  rw [backingFile] at h
  split at h
  · obtain ⟨stem, hstem⟩ := exists_stem
    rw [backingPathOf, hstem] at h
    exact child_append ending_qcow2 h
  · cases h

/-- A text has no end with a character that it does not have. -/
theorem isSuffixOf_eq_false {s t : List Char} (c : Char) (hs : c ∈ s) (ht : c ∉ t) :
    s.isSuffixOf t = false := by
  rw [← Bool.not_eq_true, List.isSuffixOf_iff_suffix]
  intro h
  exact ht (h.subset hs)

section Digits

variable {digits : List Char}

/-- A name that ends in a dash and digits does not end in `-cidata`. -/
theorem append_digits_ne_cidata {b : String} (ht : 't' ∉ digits) :
    a ++ ("-" ++ String.ofList digits) ≠ b ++ "-cidata" := by
  have hlist : ("-" ++ String.ofList digits).toList = '-' :: digits := by simp
  refine append_ne_append a b ?_ (isSuffixOf_eq_false 't' (by decide) (by simpa [hlist] using ht))
  rw [hlist, ← Bool.not_eq_true, List.isSuffixOf_iff_suffix]
  intro h
  -- of the ends of `-cidata` only the whole of it has a dash
  rcases List.suffix_cons_iff.mp h with heq | hsub
  · have hdigits : digits = "cidata".toList := (List.cons.inj heq).2
    exact ht (by rw [hdigits]; decide)
  · exact absurd (hsub.subset List.mem_cons_self) (by decide)

/-- A name that ends in a dash and digits does not end in `.qcow2`. -/
theorem hasSuffix_digits (hdot : '.' ∉ digits) :
    hasSuffix (a ++ ("-" ++ String.ofList digits)) ".qcow2" = false := by
  have hlist : ("-" ++ String.ofList digits).toList = '-' :: digits := by simp
  refine hasSuffix_append a ?_ (isSuffixOf_eq_false '.' (by decide) (by simpa [hlist] using hdot))
  rw [hlist]
  exact isSuffixOf_eq_false '-' List.mem_cons_self (by decide)

end Digits

/-- The digits at the end of the name of an image that is fetched. -/
theorem mem_digits {bs : List UInt8} {k : ℕ} {c : Char} (hc : c ∈ (hexEncode bs).toList.take k) :
    c ≠ 't' ∧ c ≠ '.' :=
  forall_mem_hexEncode (P := fun c => c ≠ 't' ∧ c ≠ '.') (by decide) (List.mem_of_mem_take hc)

/-- **An image that is fetched is not called like a seed.** -/
theorem urlBaseName_ne_seedName {format : String} :
    cloudImageURLVolumeBaseName hash img format ≠ noCloudSeedVolumeName m :=
  append_digits_ne_cidata fun h => (mem_digits h).1 rfl

/-- **An image that is fetched is not called like a file.** -/
theorem volumeFileName_urlBaseName :
    volumeFileName (cloudImageURLVolumeBaseName hash img "qcow2") "qcow2" =
      cloudImageURLVolumeBaseName hash img "qcow2" ++ ".qcow2" := by
  have hsuffix : hasSuffix (cloudImageURLVolumeBaseName hash img "qcow2") ".qcow2" = false :=
    hasSuffix_digits fun h => (mem_digits h).2 rfl
  rw [volumeFileName_qcow2, hsuffix, if_neg (by simp)]

/-- The backing volume of an image that has a URL. -/
theorem backingFile_url (htrim : trimSpace img.name = img.name)
    (hresolved : (resolveBacking img.name img).toOption.isSome) (hurl : trimSpace img.url ≠ "")
    (hname : VolumeName (cloudImageURLVolumeBaseName hash img "qcow2")) :
    backingFile hash img = some (cloudImageURLVolumeBaseName hash img "qcow2" ++ ".qcow2") := by
  rw [backingFile, if_pos ⟨htrim, hresolved, fun _ => hname⟩, backingPathOf,
    cloudImageBackingVolumeBaseName, if_neg hurl, volumeFileName_urlBaseName]
  exact child_eq_self (by decide) (hname.append (by decide)) (ending_qcow2.2 _)

/-- The backing volume of an image that is fetched. -/
theorem Fetched.backingFile_eq {v : VirtualMachine} (h : Fetched images v img)
    (hname : VolumeName (cloudImageURLVolumeBaseName hash img "qcow2")) :
    backingFile hash img = some (cloudImageURLVolumeBaseName hash img "qcow2" ++ ".qcow2") :=
  backingFile_url (by rw [h.name, trimSpace_trimSpace]) h.resolved h.url hname

/-! ### Files of a virtual machine -/

/-- A file with another end than a backing volume is somebody else's if it is of another virtual
machine. -/
theorem foreign_append (ht : t.toList.isSuffixOf ".qcow2".toList = false)
    (ht' : ".qcow2".toList.isSuffixOf t.toList = false) :
    Foreign hash vms images n (c ++ t) ↔ OfVM {m ∈ vms | m ≠ n} (c ++ t) := by
  refine or_iff_left ?_
  rintro ⟨img, -, himg⟩
  obtain ⟨c', -, heq⟩ := backingFile_append himg
  exact append_ne_append c c' ht ht' heq

/-- **Of the files that a volume is looked for under**, those with another end than a disk are
somebody else's only if another virtual machine is called so. -/
theorem not_foreign_of_candidates (hmem : f ∈ candidates c)
    (hqcow2 : f = c ++ ".qcow2" → ¬Foreign hash vms images n f)
    (hraw : f = c ++ ".raw" → ∀ m ∈ {m ∈ vms | m ≠ n}, c ≠ noCloudSeedVolumeName m)
    (hcidata : f = c ++ "-cidata.raw" → c ∉ {m ∈ vms | m ≠ n}) : ¬Foreign hash vms images n f := by
  simp only [candidates, List.mem_cons, List.not_mem_nil, or_false] at hmem
  rcases hmem with rfl | rfl | rfl | rfl
  · exact hqcow2 rfl
  · rw [foreign_append (by decide) (by decide)]
    exact not_ofVM_append (by decide) (by decide)
  · rw [foreign_append (by decide) (by decide), ofVM_raw]
    rintro ⟨m, hm, heq⟩
    exact hraw rfl m hm heq
  · rw [foreign_append (by decide) (by decide), ofVM_cidata]
    exact hcidata rfl

namespace Apart

/-- No virtual machine is called like the seed of another one. -/
theorem seedName_notMem (h : Apart hash vms images) (hn : n ∈ vms)
    (hname : VolumeName (noCloudSeedVolumeName n ++ t)) : noCloudSeedVolumeName n ∉ vms :=
  h.seeds n hn hname.of_append.of_append

/-- **What is handled as a volume of a virtual machine** is nobody else's. -/
theorem not_foreign (h : Apart hash vms images) (hn : n ∈ vms) (hf : VolumeName f)
    (hmem : f ∈ volumesOf n) : ¬Foreign hash vms images n f := by
  rcases List.mem_append.mp hmem with hmem | hmem
  · refine not_foreign_of_candidates hmem ?_ ?_ fun _ hm => hm.2 rfl
    · rintro rfl (hvm | ⟨img, himg, hback⟩)
      · exact (ofVM_qcow2.mp hvm).2 rfl
      · exact (h.backing n hn img himg).1 hback
    · rintro rfl m ⟨hm, -⟩ rfl
      exact h.seedName_notMem hm hf hn
  · refine not_foreign_of_candidates hmem ?_ ?_ ?_
    · rintro rfl (hvm | ⟨img, himg, hback⟩)
      · exact h.seedName_notMem hn hf (ofVM_qcow2.mp hvm).1
      · exact (h.backing n hn img himg).2 hback
    · rintro rfl m ⟨-, hne⟩ heq
      exact hne (append_right_cancel "-cidata" heq).symm
    · rintro rfl hm
      exact h.seedName_notMem hn hf hm.1

end Apart

/-! ### Files of the agent -/

/-- The text of a format that passes the check. -/
theorem trimSpace_format {format : ImageFormat}
    (h : ¬(format.text ≠ "" ∧ format ≠ .qcow2 ∧ format ≠ .squashfs ∧ format ≠ .wim)) :
    trimSpace format.text ∈ ["", "qcow2", "squashfs", "wim"] := by
  by_cases htext : format.text = ""
  · rw [htext]
    decide
  · have hformat : format = .qcow2 ∨ format = .squashfs ∨ format = .wim := by tauto
    rcases hformat with rfl | rfl | rfl <;> decide

/-- **The formats of copies.** -/
theorem syncedFormat_mem (h : validateName img = .ok ()) :
    syncedFormat img ∈ ["qcow2", "squashfs", "wim"] := by
  simp only [validateName, check_bind_eq_ok, failIf_eq_ok] at h
  obtain ⟨-, hformat, hroot⟩ := h
  -- both texts between which the agent chooses have passed the check
  have hcases : ∃ text ∈ ["", "qcow2", "squashfs", "wim"],
      syncedFormat img = if text = "" then "qcow2" else text := by
    rcases hman : img.manifest with _ | manifest
    · exact ⟨_, trimSpace_format hformat, by simp [syncedFormat, hman]⟩
    by_cases hart : isArtifactImage img = true ∧ trimSpace manifest.rootFormat.text ≠ ""
    · have hunset : manifest.rootFormat ≠ .unset := by
        intro hunset
        exact hart.2 (by rw [hunset]; decide)
      have heff : effectiveImageFormat img.toOSImage = manifest.rootFormat := by
        simp [effectiveImageFormat, hman, hunset]
      rw [heff] at hroot
      exact ⟨_, trimSpace_format hroot, by simp [syncedFormat, hman, hart]⟩
    · exact ⟨_, trimSpace_format hformat, by simp [syncedFormat, hman, hart]⟩
  obtain ⟨text, htext, heq⟩ := hcases
  rw [heq]
  simp only [List.mem_cons, List.not_mem_nil, or_false] at htext
  rcases htext with rfl | rfl | rfl | rfl <;> decide

/-- **The copy of an image ends in its format.** -/
theorem Copy.eq_append (himages : ∀ img ∈ images, validateName img = .ok ()) (h : Copy images f) :
    ∃ c, VolumeName c ∧ (f = c ++ ".qcow2" ∨ f = c ++ ".squashfs" ∨ f = c ++ ".wim") := by
  obtain ⟨img, himg, -, hdest⟩ := h
  have hfmt := syncedFormat_mem (himages img himg)
  rw [syncedImageFilename] at hdest
  simp only [List.mem_cons, List.not_mem_nil, or_false] at hfmt
  rcases hfmt with hfmt | hfmt | hfmt <;> rw [hfmt] at hdest
  · obtain ⟨c, hslash, hc⟩ := child_append ending_qcow2 hdest
    exact ⟨c, hslash, .inl hc⟩
  · obtain ⟨c, hslash, hc⟩ := child_append (ending_of_length (by decide) (by decide)) hdest
    exact ⟨c, hslash, .inr (.inl hc)⟩
  · obtain ⟨c, hslash, hc⟩ := child_append (ending_of_length (by decide) (by decide)) hdest
    exact ⟨c, hslash, .inr (.inr hc)⟩

/-- **A copy is no disk and no seed.** -/
theorem Apart.copy_not_ofVM (h : Apart hash vms images)
    (himages : ∀ img ∈ images, validateName img = .ok ()) (hf : Copy images f) : ¬OfVM vms f := by
  obtain ⟨c, -, rfl | rfl | rfl⟩ := hf.eq_append himages
  · rw [ofVM_qcow2]
    exact fun hc => h.copies c hc hf
  · exact not_ofVM_append (by decide) (by decide)
  · exact not_ofVM_append (by decide) (by decide)

end Gomi.Volumes
