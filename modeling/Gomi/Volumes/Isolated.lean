import Gomi.Transition
import Gomi.Volumes.Actions
import Gomi.Volumes.Names

/-!
# Names that are apart keep their files apart

What is done to a virtual machine leaves everybody else's files as they are and creates no
others than its own, and the agent leaves the disks and the seeds alone, if libvirt reads the names
as they were written (`Gomi.Volumes.ReadBack`) and they are `Gomi.Volumes.Apart`:
`Gomi.Volumes.isolated_of_apart`.

The agent removes files that have a marker. Whether a file has one is a matter of what the agent
did before, so the result is about runs, of actions and syncs in any order, and has an invariant:
only copies of images are marked (`Gomi.Volumes.Marked`).

The rest is about one program at a time, from a state `s₀`. It is proved with
`Gomi.Prog.Maintains`, and what is maintained is `Gomi.Volumes.Inv`: the files that differ from
those of `s₀` are ones that the program may touch, and the files that `s₀` does not have are ones
that it may create. Everything about names is in `Gomi.Volumes.Names`.
-/

namespace Gomi.Volumes

open Go Prog
open Vm (VirtualMachine LibvirtErr Hypervisor)

variable {raw : String → Option String} {hash : Hashing} {vms : Set String} {images : List Image}
  {f g : String} {s₀ s s' : Host}
variable {img : Image} {checksum c body expected : String} {sizeGB : ℤ}

/-! ### The invariant -/

/-- Only copies of images are marked. -/
def Marked (images : List Image) (s : Host) : Prop :=
  ∀ f, s.files[f ++ managedMarkerSuffix]?.isSome → Copy images f

/-- The file is not the marker of anything but a copy. -/
def MarkerSafe (images : List Image) (g : String) : Prop :=
  ∀ f, g = f ++ managedMarkerSuffix → Copy images f

/-- What holds of a state that a program has reached from `s₀`, if it touches files of `T` only and
creates files of `N` only. -/
structure Inv (images : List Image) (T N : String → Prop) (s₀ s : Host) : Prop where
  touched : ∀ f, s.files[f]? ≠ s₀.files[f]? → T f
  created : ∀ f, s.files[f]?.isSome → s₀.files[f]?.isSome ∨ N f
  marked : Marked images s

/-- A file that may be touched and created. -/
structure Writable (images : List Image) (T N : String → Prop) (g : String) : Prop where
  touch : T g
  create : N g
  mark : MarkerSafe images g

variable {T N : String → Prop}

theorem Inv.refl (h : Marked images s₀) : Inv images T N s₀ s₀ :=
  ⟨fun _ hne => absurd rfl hne, fun _ hf => .inl hf, h⟩

theorem Inv.put (h : Inv images T N s₀ s) (hg : Writable images T N g) (content : String) :
    Inv images T N s₀ (s.put g content) := by
  refine ⟨fun f hne => ?_, fun f hf => ?_, fun f hf => ?_⟩
  · by_cases hfg : g = f
    · exact hfg ▸ hg.touch
    · rw [Host.get_put, if_neg hfg] at hne
      exact h.touched f hne
  · by_cases hfg : g = f
    · exact .inr (hfg ▸ hg.create)
    · rw [Host.get_put, if_neg hfg] at hf
      exact h.created f hf
  · by_cases hfg : g = f ++ managedMarkerSuffix
    · exact hg.mark f hfg
    · rw [Host.get_put, if_neg hfg] at hf
      exact h.marked f hf

theorem Inv.drop (h : Inv images T N s₀ s) (hg : T g) : Inv images T N s₀ (s.drop g) := by
  have hsome : ∀ f : String, (s.drop g).files[f]?.isSome → s.files[f]?.isSome := by
    intro f hf
    rw [Host.get_drop] at hf
    split at hf
    · cases hf
    · exact hf
  refine ⟨fun f hne => ?_, fun f hf => h.created f (hsome f hf), fun f hf => h.marked f (hsome _ hf)⟩
  by_cases hfg : g = f
  · exact hfg ▸ hg
  · rw [Host.get_drop, if_neg hfg] at hne
    exact h.touched f hne

/-- The programs that maintain the invariant. -/
abbrev Holds {α : Type} (raw : String → Option String) (images : List Image) (T N : String → Prop)
    (s₀ : Host) (A : α → Prop) (p : Prog Res α) : Prop :=
  Maintains (step raw images) (Inv images T N s₀) A p

variable {α : Type} {A : α → Prop} {name format : String}

/-- An operation that changes nothing. -/
theorem Holds.reads {o : Op} {k : Res o → Prog Res α} (ho : o.Reads)
    (h : ∀ r, Holds raw images T N s₀ A (k r)) : Holds raw images T N s₀ A (Prog.perform o >>= k) := by
  refine .perform_bind fun s r s' hs hstep => ⟨?_, h r⟩
  rwa [step_reads ho hstep]

/-! ### Volumes -/

/-- A volume that may be written wherever it can be created. -/
def Creatable (images : List Image) (T N : String → Prop) (s₀ : Host) (g : String) : Prop :=
  VolumeName g → ∀ s, Inv images T N s₀ s → s.files[g]? = none → Writable images T N g

theorem holds_createXML {vol : VolumeXML} {k : Except LibvirtErr Volume → Prog Res α}
    (hread : vol.readName raw = some g) (hvol : Creatable images T N s₀ g)
    (hok : Writable images T N g → ∀ content, Holds raw images T N s₀ A (k (.ok ⟨g, content⟩)))
    (herror : ∀ e, Holds raw images T N s₀ A (k (.error e))) :
    Holds raw images T N s₀ A (Client.createXML vol >>= k) := by
  refine .perform_bind ?_
  rintro s (e | ⟨name, content⟩) s' hs hstep
  · cases hstep
    exact ⟨hs, herror e⟩
  · obtain ⟨hread', hname, habsent, rfl⟩ := step_createXML_ok hstep
    obtain rfl : g = name := Option.some.inj (hread.symm.trans hread')
    have hwrite := hvol hname s hs habsent
    exact ⟨hs.put hwrite content, hok hwrite content⟩

theorem holds_deleteVolume {k : Except LibvirtErr Unit → Prog Res α} (hg : VolumeName g → T g)
    (hk : ∀ r, Holds raw images T N s₀ A (k r)) :
    Holds raw images T N s₀ A (Client.deleteVolume g >>= k) := by
  refine .perform_bind fun s r s' hs hstep => ?_
  rcases step_deleteVolume hstep with rfl | ⟨hname, rfl⟩
  · exact ⟨hs, hk r⟩
  · exact ⟨hs.drop (hg hname), hk r⟩

/-- The name of a volume is read as it was written. -/
abbrev Reads (g : String) : Prop := xmlText g = g

theorem readName_escaped {capacity : ℤ} (h : Reads g) :
    VolumeXML.readName raw { name := g, escaped := true, capacity, format } = some g :=
  congrArg some h

theorem createVolume_holds (hread : Reads (volumeFileName name format))
    (hvol : Creatable images T N s₀ (volumeFileName name format)) :
    Holds raw images T N s₀ (fun _ => True) (createVolume name sizeGB format) := by
  refine .reads trivial ?_
  rintro (e | _)
  · exact .pure trivial
  refine .ite (fun _ => .pure trivial) fun _ => ?_
  exact holds_createXML (readName_escaped hread) hvol (fun _ _ => .pure trivial) fun _ => .pure trivial

theorem createOverlayVolume_holds {path : String} (hread : raw (disk name) = some (disk name))
    (hvol : Creatable images T N s₀ (disk name)) :
    Holds raw images T N s₀ (fun _ => True) (createOverlayVolume name sizeGB path format) := by
  refine .reads trivial ?_
  rintro (e | _)
  · exact .pure trivial
  exact holds_createXML hread hvol (fun _ _ => .pure trivial) fun _ => .pure trivial

/-- A volume is created and filled; if that succeeds, the volume is one that may be touched. -/
theorem createVolumeFromReader_holds {size : ℤ} {content : String}
    (hread : Reads (volumeFileName name format))
    (hvol : Creatable images T N s₀ (volumeFileName name format)) :
    Holds raw images T N s₀ (fun r => r = .ok () → T (volumeFileName name format))
      (createVolumeFromReader name size format content) := by
  refine .reads trivial ?_
  rintro (e | _)
  · exact .pure (by simp)
  refine .ite (fun _ => .pure (by simp)) fun _ => .ite (fun _ => .pure (by simp)) fun _ => ?_
  refine holds_createXML (readName_escaped hread) hvol (fun hwrite _ => ?_) fun _ => .pure (by simp)
  refine .perform_bind fun s r s' hs hstep => ?_
  obtain ⟨-, part, rfl⟩ := step_uploadVolume hstep
  refine ⟨hs.put hwrite part, ?_⟩
  rcases r with ⟨e, _⟩ | _
  · exact holds_deleteVolume (fun _ => hwrite.touch) fun _ => .pure (by simp)
  · exact .pure fun _ => hwrite.touch

theorem deleteEach_holds {l : List String} (h : ∀ g ∈ l, VolumeName g → T g) :
    Holds raw images T N s₀ (fun _ => True) (deleteEach l) := by
  induction l with
  | nil => exact .pure trivial
  | cons g rest ih =>
    have hrest := ih fun g' hg' => h g' (List.mem_cons_of_mem g hg')
    refine .reads trivial ?_
    rintro (e | _)
    · exact hrest
    refine holds_deleteVolume (h g List.mem_cons_self) ?_
    rintro (e | _)
    · exact .pure trivial
    · exact hrest

theorem deleteVolume_holds (h : ∀ g ∈ candidates name, VolumeName g → T g) :
    Holds raw images T N s₀ (fun _ => True) (deleteVolume name) := by
  refine .reads trivial ?_
  rintro (e | _)
  · exact .pure trivial
  · exact deleteEach_holds h

theorem volumeExists_holds :
    Holds raw images T N s₀ (fun _ => True) (volumeExists name format) := by
  refine .reads trivial ?_
  rintro (e | _)
  · exact .pure trivial
  refine .reads trivial ?_
  rintro (e | _)
  · exact .ite (fun _ => .pure trivial) fun _ => .pure trivial
  · exact .pure trivial

/-! ### Seeds and cloud images -/

theorem volumeFileName_seed {n : String} :
    volumeFileName (noCloudSeedVolumeName n) "raw" = seed n := by
  have hsuffix : hasSuffix (noCloudSeedVolumeName n) ("." ++ "raw") = false :=
    hasSuffix_append n (by decide) (by decide)
  rw [volumeFileName]
  simp only [show ("raw" = "") = False by decide, if_false, hsuffix]
  rfl

theorem prepareNoCloudSeed_holds {v : VirtualMachine} {pxeBaseURL : String}
    (hread : Reads (seed v.name)) (hvol : Creatable images T N s₀ (seed v.name))
    (hdel : ∀ g ∈ candidates (noCloudSeedVolumeName v.name), VolumeName g → T g) :
    Holds raw images T N s₀ (fun _ => True) (prepareNoCloudSeed v pxeBaseURL) := by
  rw [prepareNoCloudSeed]
  refine .ite (fun _ => .pure trivial) fun _ => ?_
  refine Holds.reads trivial ?_
  rintro (e | iso)
  · exact .pure trivial
  refine (deleteVolume_holds hdel).bind ?_
  rintro (e | _) _
  · exact .pure trivial
  rw [← volumeFileName_seed] at hread hvol
  refine (createVolumeFromReader_holds hread hvol).bind ?_
  rintro (e | _) _ <;> exact .pure trivial

theorem uploadCloudImageBacking_holds (hread : Reads (volumeFileName name format))
    (hvol : Creatable images T N s₀ (volumeFileName name format))
    (hdel : T (volumeFileName name format) → ∀ g ∈ candidates name, VolumeName g → T g) :
    Holds raw images T N s₀ (fun _ => True) (uploadCloudImageBacking hash img name format) := by
  refine .ite (fun _ => .pure trivial) fun _ => ?_
  refine Holds.reads trivial ?_
  rintro (_ | ⟨scheme, host⟩)
  · exact .pure trivial
  refine .ite (fun _ => .pure trivial) fun _ => .ite (fun _ => .pure trivial) fun _ => ?_
  refine Holds.reads trivial ?_
  rintro (text | resp)
  · exact .pure trivial
  refine .ite (fun _ => .pure trivial) fun _ => .ite (fun _ => .pure trivial) fun _ => ?_
  refine (createVolumeFromReader_holds hread hvol).bind ?_
  rintro (e | _) hr
  · exact .pure trivial
  refine .ite (fun _ => ?_) fun _ => .pure trivial
  refine (deleteVolume_holds (hdel (hr rfl))).bind ?_
  rintro (e | _) _ <;> exact .pure trivial

/-- The format of an image that passes the checks. -/
theorem resolveBacking_format {ref : String} (h : resolveBacking ref img = .ok format) :
    format = "qcow2" := by
  unfold resolveBacking at h
  split at h
  · cases h
  split at h
  · cases h
  rename_i hformat
  split at h
  · cases h
  · rw [← Except.ok.inj h]
    exact not_not.mp hformat

theorem prepareCloudImageBacking_holds {ref : String}
    (himg : ∀ img ∈ images, img.name = trimSpace ref →
      (resolveBacking img.name img).toOption.isSome → trimSpace img.url ≠ "" →
      Reads (volumeFileName (cloudImageURLVolumeBaseName hash img "qcow2") "qcow2") ∧
      Creatable images T N s₀
      (volumeFileName (cloudImageURLVolumeBaseName hash img "qcow2") "qcow2") ∧
      (T (volumeFileName (cloudImageURLVolumeBaseName hash img "qcow2") "qcow2") →
      ∀ g ∈ candidates (cloudImageURLVolumeBaseName hash img "qcow2"), VolumeName g → T g)) :
    Holds raw images T N s₀ (fun _ => True) (prepareCloudImageBacking hash ref) := by
  have hresolve : Holds raw images T N s₀
      (fun r => ∀ img format, r = .ok (img, format) → img ∈ images ∧ img.name = trimSpace ref ∧
        resolveBacking img.name img = .ok format) (resolveCloudImageBackingImage ref) := by
    refine .ite (fun _ => .pure (by simp)) fun _ => ?_
    refine .perform_bind fun s r s' hs hstep => ?_
    obtain rfl : s' = s := step_reads (o := .osImage _) trivial hstep
    refine ⟨hs, ?_⟩
    rcases r with e | img
    · cases e <;> exact .pure (by simp)
    obtain ⟨hmem, hname⟩ := step_osImage_ok hstep
    refine .pure fun img' format hr => ?_
    rw [← hname] at hr
    cases hfound : resolveBacking img.name img with
    | error => simp [hfound, Except.map] at hr
    | ok format' =>
      obtain ⟨rfl, rfl⟩ : img = img' ∧ format' = format := by
        simpa [hfound, Except.map] using hr
      exact ⟨hmem, hname, hfound⟩
  refine hresolve.bind ?_
  rintro (e | ⟨img, format⟩) hr
  · exact .pure trivial
  obtain ⟨hmem, hname, hfound⟩ := hr img format rfl
  obtain rfl := resolveBacking_format hfound
  refine .ite (fun _ => .pure trivial) fun hurl => ?_
  refine volumeExists_holds.bind fun r _ => ?_
  obtain ⟨hread, hvol, hdel⟩ := himg img hmem hname (by simp [hfound, Except.toOption]) hurl
  rcases r with e | _ | _
  · exact .pure trivial
  · refine (uploadCloudImageBacking_holds hread hvol hdel).bind ?_
    rintro (e | _) _ <;> exact .pure trivial
  · exact .pure trivial

/-! ### Actions -/

/-- The files that an action on a virtual machine may touch, in the state `s`: the volumes of the
virtual machine, and what is named after the image that it is made from, but never a backing
volume that is there. -/
def MayTouch (hash : Hashing) (images : List Image) (s : Host) (v : VirtualMachine) (f : String) :
    Prop :=
  VolumeName f ∧ (f ∈ volumesOf v.name ∨ ∃ img, Fetched images v img ∧
    f ∈ candidates (cloudImageURLVolumeBaseName hash img "qcow2") ∧
      (backingFile hash img = some f → s.files[f]? = none))

/-- The files that are created for a virtual machine: its disk, its seed and, if it is made from an
image that is fetched, the backing volume of the image. -/
def Own (hash : Hashing) (images : List Image) (v : VirtualMachine) (f : String) : Prop :=
  f = disk v.name ∨ f = seed v.name ∨ ∃ img, Fetched images v img ∧ backingFile hash img = some f

/-- **An action on a virtual machine keeps to its files**: it touches its own only, creates its own
only, and leaves what is somebody else's as it is. -/
structure Contained (hash : Hashing) (vms : Set String) (images : List Image) (v : VirtualMachine)
    (s s' : Host) : Prop where
  only : ∀ f, s'.files[f]? ≠ s.files[f]? → MayTouch hash images s v f
  created : ∀ f, s'.files[f]?.isSome → s.files[f]?.isSome ∨ Own hash images v f
  others : ∀ f content, Foreign hash vms images v.name f → s.files[f]? = some content →
    s'.files[f]? = some content

/-- A name with another end than a marker is none. -/
theorem markerSafe_append {t : String} (ht : t.toList.isSuffixOf managedMarkerSuffix.toList = false)
    (ht' : managedMarkerSuffix.toList.isSuffixOf t.toList = false) : MarkerSafe images (c ++ t) :=
  fun f heq => absurd heq (append_ne_append c f ht ht')

section Actions

variable {v : VirtualMachine}

theorem creatable_disk : Creatable images (MayTouch hash images s₀ v) (Own hash images v) s₀
    (disk v.name) := by
  intro hname _ _ _
  refine ⟨⟨hname, .inl ?_⟩, .inl rfl, markerSafe_append (by decide) (by decide)⟩
  simp [volumesOf, candidates, disk]

theorem creatable_seed : Creatable images (MayTouch hash images s₀ v) (Own hash images v) s₀
    (seed v.name) := by
  intro hname _ _ _
  refine ⟨⟨hname, .inl ?_⟩, .inr (.inl rfl), markerSafe_append (t := ".raw") (by decide)
    (by decide)⟩
  simp [volumesOf, candidates, seed_eq]

/-- The backing volume of an image can be written if it is not there: either it was not there at the
start, or it was touched since. -/
theorem creatable_backing (himg : Fetched images v img) :
    Creatable images (MayTouch hash images s₀ v) (Own hash images v) s₀
      (volumeFileName (cloudImageURLVolumeBaseName hash img "qcow2") "qcow2") := by
  rw [volumeFileName_urlBaseName]
  intro hname s hs habsent
  have hback := himg.backingFile_eq hname.of_append
  refine ⟨?_, .inr (.inr ⟨img, himg, hback⟩),
    markerSafe_append (by decide) (by decide)⟩
  by_cases hbefore : s₀.files[cloudImageURLVolumeBaseName hash img "qcow2" ++ ".qcow2"]? = none
  · exact ⟨hname, .inr ⟨img, himg, by simp [candidates], fun _ => hbefore⟩⟩
  · exact hs.touched _ fun heq => hbefore (heq ▸ habsent)

/-- What each operation of an action does on the host. -/
theorem onHost_holds (hread : ReadBack raw hash vms images) (hvm : v.name ∈ vms)
    (hdisk : VolumeName v.name → hasSuffix v.name ".qcow2" = false) {o : Vm.Op} (ho : OfRecord v o) :
    Holds raw images (MayTouch hash images s₀ v) (Own hash images v) s₀ (fun _ => True)
      (onHost hash o) := by
  have hvolumes : ∀ g ∈ volumesOf v.name, VolumeName g → MayTouch hash images s₀ v g :=
    fun g hg hname => ⟨hname, .inl hg⟩
  have hother : ∀ o, onHost hash o = Prog.perform (Op.vm o) →
      Holds raw images (MayTouch hash images s₀ v) (Own hash images v) s₀ (fun _ => True)
        (onHost hash o) := by
    intro o heq
    rw [heq]
    refine .perform (o := Op.vm o) fun s r s' hs hstep => ⟨?_, trivial⟩
    rwa [step_reads (o := Op.vm o) trivial hstep]
  cases o with
  | ask q =>
    cases q with
    | libvirt hv op =>
      cases op with
      | createVolume name =>
        obtain rfl : name = v.name := ho
        have hname := hread.names v.name hvm
        by_cases hsuffix : hasSuffix v.name ".qcow2" = true
        · -- a name that looks like a file and is not excluded has a slash, and is that of no volume
          refine createVolume_holds ?_ fun hvol => ?_
          · rwa [volumeFileName_qcow2, if_pos hsuffix]
          · rw [volumeFileName_qcow2, if_pos hsuffix] at hvol
            rw [hdisk hvol] at hsuffix
            cases hsuffix
        · refine createVolume_holds ?_ ?_ <;> rw [volumeFileName_qcow2, if_neg hsuffix]
          · exact xmlText_append_eq hname (by decide)
          · exact creatable_disk
      | createOverlayVolume name =>
        obtain rfl : name = v.name := ho
        exact createOverlayVolume_holds (hread.overlays v.name hvm) creatable_disk
      | deleteVolume name =>
        obtain rfl : name = v.name := ho
        exact deleteVolume_holds fun g hg => hvolumes g (List.mem_append_left _ hg)
      | _ => exact hother _ rfl
    | cloudImageBacking =>
      obtain ⟨rfl, hcurtin⟩ := ho
      refine prepareCloudImageBacking_holds fun img hmem hname hfound hurl => ?_
      have himg : Fetched images v img := ⟨hcurtin, hmem, hname, hfound, hurl⟩
      refine ⟨?_, creatable_backing himg, fun htouch g hg hname => ?_⟩
      · rw [volumeFileName_urlBaseName]
        exact xmlText_append_eq (hread.uploads img hmem hurl) (by decide)
      -- if the backing volume may be touched, so may be what is removed with it
      rw [volumeFileName_urlBaseName] at htouch
      by_cases hback : backingFile hash img = some g
      · rw [himg.backingFile_eq htouch.1.of_append] at hback
        rwa [← Option.some.inj hback]
      · exact ⟨hname, .inr ⟨img, himg, hg, fun heq => absurd heq hback⟩⟩
    | noCloudSeed hv u =>
      have hname : u.name = v.name := ho
      refine prepareNoCloudSeed_holds ?_ ?_ ?_
      · rw [hname, seed_eq]
        exact xmlText_append_eq (hread.names v.name hvm) (by decide)
      · rw [hname]
        exact creatable_seed
      · rw [hname]
        exact fun g hg => hvolumes g (List.mem_append_right _ hg)
    | _ => exact hother _ rfl
  | _ => exact hother _ rfl

/-- **An action keeps to the files of its virtual machine.** -/
theorem Apart.contained {a : Action} (h : Apart hash vms images)
    (hread : ReadBack raw hash vms images) (hv : v.name ∈ vms)
    (hmarked : Marked images s) (hreach : Reaches (step raw images) (a.prog hash v) s s') :
    Contained hash vms images v s s' ∧ Marked images s' := by
  have hinv : Inv images (MayTouch hash images s v) (Own hash images v) s s' :=
    (Maintains.interpret (a.vmProg_uses v) fun _ =>
      onHost_holds hread hv (h.disks v.name hv)).reaches
      (.refl hmarked) hreach
  refine ⟨⟨hinv.touched, hinv.created, fun f content hforeign hf => ?_⟩, hinv.marked⟩
  by_contra hne
  obtain ⟨hname, hmem | ⟨img, himg, hmem, hback⟩⟩ := hinv.touched f (by rw [hf]; exact hne)
  · exact h.not_foreign hv hname hmem hforeign
  · by_cases heq : backingFile hash img = some f
    · rw [hback heq] at hf
      cases hf
    · -- what is removed with the backing volume of an image is nobody's
      refine not_foreign_of_candidates hmem ?_ ?_ ?_ hforeign
      · rintro rfl
        exact absurd (himg.backingFile_eq hname.of_append) heq
      · exact fun _ m _ heq => urlBaseName_ne_seedName heq
      · rintro rfl ⟨hm, -⟩
        exact (h.backing _ hm img himg.mem).1 (himg.backingFile_eq hname.of_append)

end Actions

/-! ### The agent -/

/-- A path that the agent may write: if it is one of a file in the directory, the file is no disk, no
seed and no marker of anything but a copy. -/
def PathSafe (vms : Set String) (images : List Image) (p : FilePath) : Prop :=
  ∀ f, p = some f → Writable images (fun f => ¬OfVM vms f) (fun _ => True) f

/-- The programs of the agent leave disks and seeds alone. -/
abbrev Harmless {α : Type} (raw : String → Option String) (vms : Set String) (images : List Image)
    (s₀ : Host) (A : α → Prop) (p : Prog Res α) : Prop :=
  Holds raw images (fun f => ¬OfVM vms f) (fun _ => True) s₀ A p

section Agent

variable {p : FilePath} {α : Type} {A : α → Prop}

theorem Inv.write {T : String → Prop} (h : Inv images T (fun _ => True) s₀ s)
    (hp : ∀ f, p = some f → Writable images T (fun _ => True) f) (content : String) :
    Inv images T (fun _ => True) s₀ (s.write p content) := by
  rcases p with _ | f
  · exact h
  · exact h.put (hp f rfl) content

theorem Inv.unlink (h : Inv images T N s₀ s) (hp : ∀ f, p = some f → T f) :
    Inv images T N s₀ (s.unlink p) := by
  rcases p with _ | f
  · exact h
  · exact h.drop (hp f rfl)

theorem harmless_write {o : Op} {k : Res o → Prog Res α} (ho : o.Writes p)
    (hp : PathSafe vms images p) (hk : ∀ r, Harmless raw vms images s₀ A (k r)) :
    Harmless raw vms images s₀ A (Prog.perform o >>= k) := by
  refine .perform_bind fun s r s' hs hstep => ⟨?_, hk r⟩
  rcases step_writes ho hstep with rfl | ⟨content, rfl⟩
  · exact hs
  · exact hs.write hp content

theorem harmless_rename {q : FilePath} {k : Bool → Prog Res α} (hp : PathSafe vms images p)
    (hq : PathSafe vms images q) (hk : ∀ r, Harmless raw vms images s₀ A (k r)) :
    Harmless raw vms images s₀ A (Client.rename p q >>= k) := by
  refine .perform_bind fun s r s' hs hstep => ⟨?_, hk r⟩
  rcases step_rename hstep with rfl | ⟨content, rfl⟩
  · exact hs
  · exact (hs.unlink fun f hf => (hp f hf).touch).write hq content

theorem harmless_remove {k : Bool → Prog Res α} (hp : ∀ f, p = some f → ¬OfVM vms f)
    (hk : ∀ r, Harmless raw vms images s₀ A (k r)) :
    Harmless raw vms images s₀ A (Client.remove p >>= k) := by
  refine .perform_bind fun s r s' hs hstep => ⟨?_, hk r⟩
  cases r <;> cases hstep
  · exact hs
  · exact hs.unlink hp

theorem PathSafe.remove (h : PathSafe vms images p) (f : String) (hf : p = some f) : ¬OfVM vms f :=
  (h f hf).touch

/-! #### Writes -/

theorem replaceFrom_harmless {content : Except String String} (hp : PathSafe vms images p)
    (htmp : PathSafe vms images (p.append ".tmp")) :
    Harmless raw vms images s₀ (fun _ => True) (replaceFrom p content) := by
  refine harmless_write rfl htmp fun r => ?_
  have hremove : Harmless raw vms images s₀ (fun _ => True)
      (Client.remove (p.append ".tmp") >>= fun _ => pure false) :=
    harmless_remove htmp.remove fun _ => .pure trivial
  rcases r with _ | _ | part <;> rcases content with part' | body
  · exact hremove
  · exact harmless_rename htmp hp fun _ => harmless_remove htmp.remove fun _ => .pure trivial
  all_goals exact hremove

theorem atomicWriteFromReader_harmless (hp : PathSafe vms images p)
    (htmp : PathSafe vms images (p.append ".tmp")) :
    Harmless raw vms images s₀ (fun _ => True) (atomicWriteFromReader p body) := by
  refine harmless_write rfl htmp fun (r : Bool) => ?_
  exact .ite (fun _ => replaceFrom_harmless hp htmp) fun _ => .pure trivial

theorem decompressWithCommand_harmless {command : String} {q : FilePath}
    (hp : PathSafe vms images p) (htmp : PathSafe vms images (p.append ".tmp")) :
    Harmless raw vms images s₀ (fun _ => True) (decompressWithCommand command q p) := by
  refine harmless_write rfl htmp fun (r : Bool) => .ite (fun _ => ?_) fun _ => .pure trivial
  exact Holds.reads trivial fun out => replaceFrom_harmless hp htmp

/-! #### Reads -/

theorem verifyChecksum_harmless :
    Harmless raw vms images s₀ (fun _ => True) (verifyChecksum hash p expected) := by
  refine .reads trivial ?_
  rintro (_ | content) <;> exact .pure trivial

theorem needsDownload_harmless :
    Harmless raw vms images s₀ (fun _ => True) (needsDownload hash p expected) := by
  refine .reads trivial ?_
  rintro (_ | size)
  · exact .pure trivial
  refine .ite (fun _ => .pure trivial) fun _ => .ite (fun _ => .pure trivial) fun _ => ?_
  exact verifyChecksum_harmless.bind fun _ _ => .pure trivial

theorem needsArtifactDownload_harmless :
    Harmless raw vms images s₀ (fun _ => True) (needsArtifactDownload p checksum) := by
  refine .reads trivial ?_
  rintro (_ | size)
  · exact .pure trivial
  refine .ite (fun _ => .pure trivial) fun _ => .ite (fun _ => .pure trivial) fun _ => ?_
  refine Holds.reads trivial ?_
  rintro (_ | recorded) <;> exact .pure trivial

/-! #### One image -/

/-- The files next to a copy that the agent writes. -/
def sidecars : List String :=
  [".tmp", sourceChecksumSuffix, managedMarkerSuffix, ".download.zstd", ".download.zstd" ++ ".tmp",
    ".download.xz", ".download.xz" ++ ".tmp"]

/-- The path of a copy, and those of the files next to it, are safe. -/
structure CopyPath (vms : Set String) (images : List Image) (p : FilePath) : Prop where
  self : PathSafe vms images p
  sidecar : ∀ t ∈ sidecars, PathSafe vms images (p.append t)

theorem CopyPath.tmp (h : CopyPath vms images p) : PathSafe vms images (p.append ".tmp") :=
  h.sidecar ".tmp" (by simp [sidecars])

theorem writeManagedMarker_harmless (hp : CopyPath vms images p) :
    Harmless raw vms images s₀ (fun _ => True) (writeManagedMarker p) := by
  refine .reads trivial ?_
  rintro (_ | size)
  · exact .pure trivial
  refine .ite (fun _ => .pure trivial) fun _ => ?_
  exact harmless_write rfl (hp.sidecar _ (by simp [sidecars])) fun _ => .pure trivial

theorem writeSourceChecksum_harmless (hp : CopyPath vms images p) :
    Harmless raw vms images s₀ (fun _ => True) (writeSourceChecksum p checksum) := by
  refine .ite (fun _ => .pure trivial) fun _ => ?_
  exact harmless_write rfl (hp.sidecar _ (by simp [sidecars])) fun _ => .pure trivial

theorem recordArtifact_harmless (hp : CopyPath vms images p) :
    Harmless raw vms images s₀ (fun _ => True) (recordArtifact hash p checksum) := by
  refine .ite (fun _ => .pure trivial) fun _ => ?_
  refine verifyChecksum_harmless.bind fun r _ => ?_
  refine .ite (fun _ => writeSourceChecksum_harmless hp) fun _ => ?_
  exact harmless_remove hp.self.remove fun _ => .pure trivial

theorem downloadImage_harmless (hp : CopyPath vms images p) :
    Harmless raw vms images s₀ (fun _ => True) (downloadImage name p) := by
  refine .reads trivial ?_
  rintro (text | resp)
  · exact .pure trivial
  exact .ite (fun _ => .pure trivial) fun _ =>
    atomicWriteFromReader_harmless hp.self hp.tmp

theorem FilePath.append_append {t u : String} :
    (p.append t).append u = p.append (t ++ u) := by
  rcases p with _ | f
  · rfl
  · exact congrArg some (String.append_assoc ..)

theorem downloadCompressed_harmless (hp : CopyPath vms images p) {command : String}
    (hcommand : command = "zstd" ∨ command = "xz") :
    Harmless raw vms images s₀ (fun _ => True)
      (downloadCompressedArtifactImage hash p body checksum command) := by
  have hself : PathSafe vms images (p.append (".download." ++ command)) := by
    rcases hcommand with rfl | rfl <;> exact hp.sidecar _ (by simp [sidecars])
  have htmp : PathSafe vms images ((p.append (".download." ++ command)).append ".tmp") := by
    rw [FilePath.append_append]
    rcases hcommand with rfl | rfl <;> exact hp.sidecar _ (by simp [sidecars])
  refine (atomicWriteFromReader_harmless hself htmp).bind fun r _ => ?_
  refine .ite (fun _ => ?_) fun _ => .pure trivial
  refine (decompressWithCommand_harmless hp.self hp.tmp).bind fun r _ => ?_
  have hremove : ∀ done : Bool, Harmless raw vms images s₀ (fun _ => True)
      (Client.remove (p.append (".download." ++ command)) >>= fun _ => pure done) :=
    fun _ => harmless_remove hself.remove fun _ => .pure trivial
  refine .ite (fun _ => ?_) fun _ => hremove false
  exact (recordArtifact_harmless hp).bind fun done _ => hremove done

theorem downloadArtifactImage_harmless (hp : CopyPath vms images p) :
    Harmless raw vms images s₀ (fun _ => True) (downloadArtifactImage hash img p) := by
  unfold downloadArtifactImage
  split
  · exact .pure trivial
  refine .ite (fun _ => .pure trivial) fun _ => ?_
  split
  · exact .pure trivial
  refine Holds.reads trivial ?_
  rintro (text | resp)
  · exact .pure trivial
  refine .ite (fun _ => .pure trivial) fun _ => .ite (fun _ => ?_) fun _ => ?_
  · refine (atomicWriteFromReader_harmless hp.self hp.tmp).bind fun r _ => ?_
    exact .ite (fun _ => recordArtifact_harmless hp) fun _ => .pure trivial
  · split
    · exact downloadCompressed_harmless hp (.inl rfl)
    · exact downloadCompressed_harmless hp (.inl rfl)
    · exact downloadCompressed_harmless hp (.inr rfl)
    · exact .pure trivial

theorem syncArtifact_harmless (hp : CopyPath vms images p) :
    Harmless raw vms images s₀ (fun _ => True) (syncArtifact hash img p) := by
  refine needsArtifactDownload_harmless.bind fun r _ => ?_
  refine .ite (fun _ => ?_) fun _ => writeManagedMarker_harmless hp
  refine (downloadArtifactImage_harmless hp).bind fun r _ => ?_
  exact .ite (fun _ => writeManagedMarker_harmless hp) fun _ => .pure trivial

theorem syncPlain_harmless (hp : CopyPath vms images p) :
    Harmless raw vms images s₀ (fun _ => True) (syncPlain hash img p) := by
  refine needsDownload_harmless.bind fun r _ => ?_
  refine .ite (fun _ => ?_) fun _ => writeManagedMarker_harmless hp
  refine (downloadImage_harmless hp).bind fun r _ => ?_
  refine .ite (fun _ => .ite (fun _ => ?_) fun _ => writeManagedMarker_harmless hp) fun _ =>
    .pure trivial
  refine verifyChecksum_harmless.bind fun r _ => ?_
  refine .ite (fun _ => writeManagedMarker_harmless hp) fun _ => ?_
  exact harmless_remove hp.self.remove fun _ => .pure trivial

/-! #### A sync -/

/-- The ends of copies, and of the files next to them. -/
theorem sidecar_not_ofVM {t : String} (ht : t ∈ sidecars) : ¬OfVM vms (c ++ t) := by
  simp only [sidecars, List.mem_cons, List.not_mem_nil, or_false] at ht
  rcases ht with rfl | rfl | rfl | rfl | rfl | rfl | rfl <;>
    exact not_ofVM_append (by decide) (by decide)

/-- **The path of the copy of an image is safe**, and so are those next to it. -/
theorem Apart.copyPath (h : Apart hash vms images)
    (himages : ∀ img ∈ images, validateName img = .ok ()) (himg : img ∈ images)
    (hready : img.ready = true) : CopyPath vms images (destPath (syncedImageFilename img)) := by
  refine ⟨fun f hf => ?_, fun t ht g hg => ?_⟩
  · have hcopy : Copy images f := ⟨img, himg, hready, hf⟩
    refine ⟨h.copy_not_ofVM himages hcopy, trivial, ?_⟩
    obtain ⟨c, -, rfl | rfl | rfl⟩ := hcopy.eq_append himages <;>
      exact markerSafe_append (by decide) (by decide)
  · obtain ⟨f, hf, rfl⟩ := Option.map_eq_some_iff.mp hg
    have hcopy : Copy images f := ⟨img, himg, hready, hf⟩
    refine ⟨sidecar_not_ofVM ht, trivial, ?_⟩
    by_cases hmarker : t = managedMarkerSuffix
    · rintro f' heq
      rw [hmarker] at heq
      rwa [← append_right_cancel managedMarkerSuffix heq]
    · simp only [sidecars, List.mem_cons, List.not_mem_nil, or_false] at ht
      rcases ht with rfl | rfl | rfl | rfl | rfl | rfl | rfl
      case inr.inr.inl => exact absurd rfl hmarker
      all_goals exact markerSafe_append (by decide) (by decide)

theorem syncEach_harmless {l : List Image}
    (h : ∀ img ∈ l, CopyPath vms images (destPath (syncedImageFilename img))) :
    Harmless raw vms images s₀ (fun _ => True) (syncEach hash l) := by
  induction l with
  | nil => exact .pure trivial
  | cons img rest ih =>
    have himg := h img List.mem_cons_self
    have hrest := ih fun img' himg' => h img' (List.mem_cons_of_mem img himg')
    refine .ite (fun _ => ?_) fun _ => ?_
    · exact (syncArtifact_harmless himg).bind fun _ _ => hrest
    · exact (syncPlain_harmless himg).bind fun _ _ => hrest

/-- A file that has a marker is a copy, and can be removed. -/
theorem cleanupEntry_harmless (h : Apart hash vms images)
    (himages : ∀ img ∈ images, validateName img = .ok ()) {expected : List String} :
    Harmless raw vms images s₀ (fun _ => True) (cleanupEntry expected name) := by
  refine .ite (fun _ => .pure trivial) fun _ => .perform_bind fun s r s' hs hstep => ?_
  obtain rfl : s' = s := step_reads (o := Op.stat _) trivial hstep
  refine ⟨hs, ?_⟩
  rcases r with _ | size
  · exact .pure trivial
  have hcopy : Copy images name := hs.marked name (step_stat_some hstep)
  refine harmless_remove (fun f hf => ?_) fun r => .ite (fun _ => ?_) fun _ => .pure trivial
  · cases hf
    exact h.copy_not_ofVM himages hcopy
  · refine harmless_remove (fun f hf => ?_) fun _ => harmless_remove (fun f hf => ?_) fun _ =>
      .pure trivial
    · cases hf
      exact sidecar_not_ofVM (by simp [sidecars])
    · cases hf
      exact sidecar_not_ofVM (by simp [sidecars])

theorem cleanupEach_harmless (h : Apart hash vms images)
    (himages : ∀ img ∈ images, validateName img = .ok ()) {expected l : List String} :
    Harmless raw vms images s₀ (fun _ => True) (cleanupEach expected l) := by
  induction l with
  | nil => exact .pure trivial
  | cons name rest ih => exact (cleanupEntry_harmless h himages).bind fun _ _ => ih

theorem syncOnce_harmless (h : Apart hash vms images)
    (himages : ∀ img ∈ images, validateName img = .ok ()) :
    Harmless raw vms images s₀ (fun _ => True) (syncOnce hash) := by
  refine .perform_bind fun s r s' hs hstep => ?_
  obtain rfl : s' = s := step_reads (o := Op.fetchImages) trivial hstep
  refine ⟨hs, ?_⟩
  rcases r with text | found
  · exact .pure trivial
  have hfound := step_fetchImages_ok hstep
  refine Holds.reads trivial fun (r : Bool) => .ite (fun _ => ?_) fun _ => .pure trivial
  refine (syncEach_harmless fun img himg => ?_).bind fun _ _ => ?_
  · obtain ⟨hmem, hready⟩ := List.mem_filter.mp himg
    exact h.copyPath himages (hfound hmem) hready
  · refine Holds.reads trivial ?_
    rintro (_ | entries)
    · exact .pure trivial
    · exact cleanupEach_harmless h himages

end Agent

end Gomi.Volumes
