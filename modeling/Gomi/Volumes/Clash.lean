import Gomi.Volumes.Isolated

/-!
# Isolation of volumes, and the names that break it

`Gomi.Volumes.Isolated` says what is expected of a host, in every run of actions and syncs from a
directory without markers: an action on a virtual machine keeps to its files, and a sync leaves
disks and seeds as they are. `Gomi.Volumes.isolated_of_apart` is that this holds of a set of virtual
machines and a list of images if their names are `Gomi.Volumes.Apart`, as long as libvirt reads the
names as they were written.

`Gomi.Volumes.volumes_clash` has three runs that break it. A virtual machine that is called like the
seed of another is deleted with that seed, because the removal of a volume tries several ends; a copy
that is called like a disk is written over the disk; and a name with a reference is read as that of
another virtual machine, whose disk is created then.
-/

namespace Gomi.Volumes

open Go Prog
open Vm (VirtualMachine LibvirtErr Hypervisor)

variable {raw : String → Option String} {hash : Hashing} {vms : Set String} {images : List Image} {n m f g : String}
  {s₀ s s' : Host} {img : Image}

/-! ### Runs -/

/-- What happens on a host. -/
inductive Label where
  /-- An action on a virtual machine, which is given by its record. -/
  | act (v : VirtualMachine) (a : Action)
  /-- A sync of the agent. -/
  | sync

/-- **The steps of a host**: an action on a virtual machine, or a sync, up to any point. -/
inductive HostStep (raw : String → Option String) (hash : Hashing) (vms : Set String)
    (images : List Image) : Host → Label → Host → Prop
  | act {v : VirtualMachine} {a : Action} {s s' : Host} (hname : v.name ∈ vms)
      (hvalid : Vm.validateVirtualMachine v = .ok ())
      (hreach : Reaches (step raw images) (a.prog hash v) s s') : HostStep raw hash vms images s (.act v a) s'
  | sync {s s' : Host} (hreach : Reaches (step raw images) (syncOnce hash) s s') :
      HostStep raw hash vms images s .sync s'

/-- What is expected of a step. -/
def Kept (hash : Hashing) (vms : Set String) (images : List Image) (s : Host) (l : Label)
    (s' : Host) : Prop :=
  match l with
  | .act v _ => Contained hash vms images v s s'
  | .sync => ∀ f content, OfVM vms f → s.files[f]? = some content → s'.files[f]? = some content

/-- Nothing in the directory is marked. -/
def Unmarked (s : Host) : Prop := ∀ f, s.files[f ++ managedMarkerSuffix]? = none

/-- **Volumes are isolated**: every step of every run keeps to its files. -/
def Isolated (raw : String → Option String) (hash : Hashing) (vms : Set String) (images : List Image) :
    Prop :=
  ∀ s₀ ls s l s', Unmarked s₀ → Steps (HostStep raw hash vms images) s₀ ls s →
    HostStep raw hash vms images s l s' → Kept hash vms images s l s'

/-! ### Names that are apart -/

/-- **Volumes are isolated if the names keep them apart**, for images whose names pass validation and
names that are read by libvirt as they were written. -/
theorem isolated_of_apart (himages : ∀ img ∈ images, validateName img = .ok ())
    (hread : ReadBack raw hash vms images) (h : Apart hash vms images) : Isolated raw hash vms images := by
  have hstep : ∀ {s l s'}, HostStep raw hash vms images s l s' → Marked images s →
      Kept hash vms images s l s' ∧ Marked images s' := by
    intro s l s' hl hmarked
    cases hl with
    | act hname _ hreach => exact h.contained hread hname hmarked hreach
    | sync hreach =>
      -- a sync leaves disks and seeds alone
      have hinv := (syncOnce_harmless h himages).reaches (.refl hmarked) hreach
      refine ⟨fun f content hf hcontent => ?_, hinv.marked⟩
      by_contra hne
      exact hinv.touched f (fun heq => hne (heq.trans hcontent)) hf
  intro s₀ ls s l s' hunmarked hrun hl
  have hmarked₀ : Marked images s₀ := fun f hf => absurd hf (by rw [hunmarked f]; simp)
  have hmarked : Marked images s :=
    hrun.invariant (fun hl hmarked => (hstep hl hmarked).2) hmarked₀
  exact (hstep hl hmarked).1

/-! ### Runs that break it -/

/-- The record of a virtual machine that passes validation. -/
def sampleVM (n osImageRef : String) (installCfg : Option Vm.InstallConfig) : VirtualMachine :=
  { name := n, osImageRef, installCfg
    resources := { cpuCores := 1, memoryMB := 1024, diskGB := 10 }
    network := [{ mac := "52:54:00:00:00:01" }] }

/-- The record of a virtual machine that is installed from a cloud image. -/
abbrev cloudVM (n osImageRef : String) : VirtualMachine :=
  sampleVM n osImageRef (some { type := .curtin })

/-- A directory with one file. -/
def oneFile (f content : String) : Host := Host.put {} f content

theorem get_oneFile {content : String} :
    (oneFile f content).files[g]? = if f = g then some content else none := by
  rw [oneFile, Host.get_put]
  rfl

theorem get_oneFile_self (f content : String) : (oneFile f content).files[f]? = some content :=
  Host.get_put_self _ _ _

theorem oneFile_unmarked {t : String} (c content : String)
    (ht : t.toList.isSuffixOf managedMarkerSuffix.toList = false)
    (ht' : managedMarkerSuffix.toList.isSuffixOf t.toList = false) :
    Unmarked (oneFile (c ++ t) content) := fun f => by
  rw [get_oneFile, if_neg (append_ne_append c f ht ht')]

/-! ### Names -/

/-- A hash, for examples. -/
def sampleHashing : Hashing where
  sha256 := fun content => if content = "image" then [1] else [222, 173, 190, 239, 0, 1]
  formatRFC3339Nano := fun _ => ""

/-- A cloud image that is fetched from its URL. -/
def ubuntu : Image :=
  { name := "ubuntu", format := .qcow2, ready := true, url := "ubuntu.img", checksum := "01" }

/-- A cloud image that the server has. -/
def debian : Image :=
  { name := "debian", format := .qcow2, ready := true, localPath := "debian.qcow2" }

/-- A reader of texts without markup. -/
def readPlain (t : String) : Option String :=
  if t.toList.all fun c => isXmlChar c && c ≠ '<' && c ≠ '&' then some t else none

/-- The same, with a name that has a reference. -/
def sampleReader (t : String) : Option String :=
  if t = "a&amp;b.qcow2" then some "a&b.qcow2" else readPlain t

/-- Two virtual machines with plain names and an image with another one. -/
theorem isolated_web_db : Isolated sampleReader sampleHashing {"web", "db"} [ubuntu] := by
  refine isolated_of_apart ?_ ⟨?_, ?_, ?_⟩ ⟨?_, ?_, ?_, ?_⟩
  · simp only [List.forall_mem_singleton]
    rfl
  · rintro n (rfl | rfl) <;> decide
  · rintro n (rfl | rfl) <;> decide
  · simp only [List.forall_mem_singleton]
    decide
  · rintro n (rfl | rfl) - (h | h) <;> exact absurd h (by decide)
  · rintro n (rfl | rfl) - <;> decide
  · simp only [List.forall_mem_singleton]
    rintro n (rfl | rfl) <;> decide
  · rintro n (rfl | rfl) ⟨img, himg, -, hdest⟩ <;> obtain rfl := List.mem_singleton.mp himg <;>
      exact absurd hdest (by decide)

/-- The replies of an undisturbed host with these images. -/
def Host.answer (images : List Image) (o : Op) (s : Host) : Res o :=
  match o with
  | .vm (.getHypervisor _) => (.ok {} : Except Err Hypervisor)
  | .vm o => Vm.World.answer Vm.Query.domainRuns o {}
  | .lookupPool | .deleteVolume _ | .uploadVolume .. => .ok ()
  | .createXML vol => .ok ⟨(vol.readName sampleReader).getD "", ""⟩
  | .lookupVolume name => if s.files[name]?.isSome then .ok () else .error { noVolume := true }
  | .osImage ref => match images.find? (·.name = ref) with
    | some img => .ok img
    | none => .error .notFound
  | .noCloudISO .. => .ok ""
  | .parseURL _ => none
  | .getURL _ => .ok { body := "image" }
  | .fetchImages => .ok images
  | .mkdirAll | .createFile _ | .rename .. | .remove _ => true
  | .stat p => p.bind fun f => s.files[f]?.map (·.length)
  | .readFile p => p.bind fun f => s.files[f]?
  | .copyTo .. | .writeFile .. => .ok
  | .readDir => some s.files.keys
  | .decompress .. => .error ""

/-- What a program leaves of a host that is undisturbed. -/
def Host.after (images : List Image) (p : Prog Res Unit) (s : Host) : Option Host :=
  (evaluate (step sampleReader images) (Host.answer images) p s).map (·.2)

theorem reaches_of_after {p : Prog Res Unit} (h : s.after images p = some s') :
    Reaches (step sampleReader images) p s s' := by
  obtain ⟨x, hx, rfl⟩ := Option.map_eq_some_iff.mp h
  exact .of_evaluate hx

/-- **Volumes that clash.** Deleting a virtual machine deletes the seed of another one; a sync of the
agent writes a copy over a disk; and deploying a virtual machine creates the disk of another one. -/
theorem volumes_clash :
    (∃ s s', Unmarked s ∧
      HostStep sampleReader sampleHashing {"web", "web-cidata"} [] s
        (.act (sampleVM "web-cidata" "ubuntu" none) (.delete {})) s' ∧
      s.files[seed "web"]? = some "seed of web" ∧ s'.files[seed "web"]? = none) ∧
    (∃ s s', Unmarked s ∧ HostStep sampleReader sampleHashing {"ubuntu"} [ubuntu] s .sync s' ∧
      s.files[disk "ubuntu"]? = some "disk of ubuntu" ∧ s'.files[disk "ubuntu"]? = some "image") ∧
    ∃ s', HostStep sampleReader sampleHashing {"a&b", "a&amp;b"} [debian] {}
        (.act (cloudVM "a&amp;b" "debian") .deploy) s' ∧
      s'.files[disk "a&b"]? = some "" := by
  have hdelete : (((oneFile (seed "web") "seed of web").after []
      ((Action.delete {}).prog sampleHashing (sampleVM "web-cidata" "ubuntu" none))).any fun s' =>
      s'.files[seed "web"]? = none) = true := by decide +kernel
  have hsync : (((oneFile (disk "ubuntu") "disk of ubuntu").after [ubuntu]
      (syncOnce sampleHashing)).any fun s' => s'.files[disk "ubuntu"]? = some "image") = true := by
    decide +kernel
  have hdeploy : ((({} : Host).after [debian]
      (Action.deploy.prog sampleHashing (cloudVM "a&amp;b" "debian"))).any fun s' =>
      s'.files[disk "a&b"]? = some "") = true := by decide +kernel
  simp only [Option.any_eq_true, decide_eq_true_eq] at hdelete hsync hdeploy
  obtain ⟨s₁, hreach₁, hseed⟩ := hdelete
  obtain ⟨s₂, hreach₂, hdisk⟩ := hsync
  obtain ⟨s₃, hreach₃, hother⟩ := hdeploy
  have hvalid : Vm.validateVirtualMachine (sampleVM "web-cidata" "ubuntu" none) = .ok () ∧
      Vm.validateVirtualMachine (cloudVM "a&amp;b" "debian") = .ok () := by decide +kernel
  exact ⟨⟨_, s₁, oneFile_unmarked (t := ".raw") _ _ (by decide) (by decide),
      .act (by simp [sampleVM]) hvalid.1 (reaches_of_after hreach₁), get_oneFile_self .., hseed⟩,
    ⟨_, s₂, oneFile_unmarked (t := ".qcow2") _ _ (by decide) (by decide),
      .sync (reaches_of_after hreach₂), get_oneFile_self .., hdisk⟩,
    s₃, .act (by simp [sampleVM]) hvalid.2 (reaches_of_after hreach₃), hother⟩

end Gomi.Volumes
