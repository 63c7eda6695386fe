import Gomi.Volumes.Clash

/-!
# The name of a disk

The volume that is created for the disk of a virtual machine, the file that its domain is given
and the files that are removed with it are texts that are made from the name of the virtual machine,
in `CreateVolume` and `CreateOverlayVolume`, in `BuildDomainConfig` and in `DeleteVolume`.
`Gomi.Volumes.one_disk_iff` says for which names they are one file.

Volumes and domains are described to libvirt by XML documents. The texts in them are escaped, but
`CreateOverlayVolume` writes the name into the document as it is, and then it is the reader who
decides, which is the parameter `raw`.
-/

namespace Gomi.Volumes

open Go Prog
open Vm (VirtualMachine)

variable {s name : String} {sizeGB : ℤ}

/-! ### Names in documents -/

/-- The directory of `hypervisorImageDir`, as `BuildDomainConfig` writes it. -/
def imageDirText : String := "/var/lib/libvirt/images/"

/-- The `DiskPath` of `BuildDomainConfig`. -/
def diskPath (v : VirtualMachine) : String := imageDirText ++ v.name ++ ".qcow2"

theorem volumeName_xmlText : VolumeName (xmlText s) ↔ VolumeName s := by
  have hchar : ∀ c, (if isXmlChar c then c else '�') = '/' ↔ c = '/' := by
    intro c
    split
    · exact Iff.rfl
    · rename_i hc
      exact iff_of_false (by decide) fun h => hc (h ▸ by decide)
  simp [VolumeName, xmlText, hchar]

/-! ### One file -/

/-- The volume is the file that the domain is given, and one that is looked for when the virtual
machine is deleted. Libvirt creates no volume whose name has a slash. -/
def Denotes (v : VirtualMachine) (f : String) : Prop :=
  VolumeName f → xmlText (diskPath v) = imageDirText ++ f ∧ f ∈ candidates v.name

/-- Every volume that the program creates is one with the property. -/
def Creates (P : String → Prop) (p : Prog Res (Except Vm.LibvirtErr Unit)) : Prop :=
  Uses (fun o => ∀ vol, o = .createXML vol → P vol.name) (fun _ => True) p

/-- **There is one disk file**: whatever is created for the disk of a virtual machine is the file
that the domain boots, and is removed with it. -/
def OneDisk (raw : String → Option String) (v : VirtualMachine) : Prop :=
  (∀ sizeGB, Creates (fun name => Denotes v (xmlText name)) (createVolume v.name sizeGB "qcow2")) ∧
    ∀ sizeGB path format, Creates (fun name => ∀ f, raw name = some f → Denotes v f)
      (createOverlayVolume v.name sizeGB path format)

variable {raw : String → Option String} {v : VirtualMachine} {P : String → Prop}

theorem creates_createVolume :
    Creates P (createVolume name sizeGB "qcow2") ↔ P (volumeFileName name "qcow2") := by
  refine ⟨fun h => ?_, fun h => ?_⟩
  · exact (uses_call.mp ((uses_call.mp h).2 (.ok ()))).1 _ rfl
  · refine .perform_bind (by simp) ?_
    rintro (e | _)
    · exact .pure trivial
    · refine .perform_bind (by rintro vol ⟨⟩; exact h) ?_
      rintro (e | _) <;> exact .pure trivial

theorem creates_createOverlayVolume {path format : String} :
    Creates P (createOverlayVolume name sizeGB path format) ↔ P (name ++ ".qcow2") := by
  refine ⟨fun h => ?_, fun h => ?_⟩
  · exact (uses_call.mp ((uses_call.mp h).2 (.ok ()))).1 _ rfl
  · refine .perform_bind (by simp) ?_
    rintro (e | _)
    · exact .pure trivial
    · refine .perform_bind (by rintro vol ⟨⟩; exact h) ?_
      rintro (e | _) <;> exact .pure trivial

/-- Of the files that are looked for, only the first ends like a disk. -/
theorem mem_candidates_disk {n c : String} : c ++ ".qcow2" ∈ candidates n ↔ c = n := by
  simp only [candidates, List.mem_cons, List.not_mem_nil, or_false]
  constructor
  · rintro (h | h | h | h)
    · exact append_right_cancel _ h
    all_goals exact absurd h (append_ne_append c n (by decide) (by decide))
  · rintro rfl
    exact .inl rfl

theorem xmlText_diskPath :
    xmlText (diskPath v) = imageDirText ++ (xmlText v.name ++ ".qcow2") := by
  have hdir : xmlText imageDirText = imageDirText := by decide
  have hend : xmlText ".qcow2" = ".qcow2" := by decide
  rw [diskPath, xmlText_append, xmlText_append, hdir, hend, String.append_assoc]

/-- The disk of a virtual machine is the file whose name is the plain one. -/
theorem denotes_iff {f : String} (hf : VolumeName f) :
    Denotes v f ↔ f = v.name ++ ".qcow2" ∧ xmlText v.name = v.name := by
  rw [Denotes, xmlText_diskPath]
  constructor
  · intro h
    obtain ⟨hpath, hmem⟩ := h hf
    obtain rfl := (String.append_right_inj _).mp hpath
    have hname := mem_candidates_disk.mp hmem
    exact ⟨by rw [hname], hname⟩
  · rintro ⟨rfl, hname⟩ -
    exact ⟨by rw [hname], mem_candidates_disk.mpr rfl⟩

/-- **The names with one disk file**: libvirt's reader takes no XML characters from them and
reads them as they are, and they do not end in `.qcow2`; with names that have a slash `CreateVolume`
creates nothing. -/
theorem one_disk_iff (hraw : ∀ t f, raw t = some f → xmlText f = f) :
    OneDisk raw v ↔
      (VolumeName v.name → hasSuffix v.name ".qcow2" = false ∧ xmlText v.name = v.name) ∧
      ∀ f, raw (v.name ++ ".qcow2") = some f → VolumeName f → f = v.name ++ ".qcow2" := by
  have hend : xmlText ".qcow2" = ".qcow2" := by decide
  simp only [OneDisk, creates_createVolume, creates_createOverlayVolume, forall_const]
  refine and_congr ?_ (forall₂_congr fun f hread => ?_)
  · rw [volumeFileName_qcow2]
    cases hsuffix : hasSuffix v.name ".qcow2" with
    | true =>
      -- the volume has the name itself, and the domain is given a longer one
      simp only [if_true, reduceCtorEq, false_and, imp_false]
      refine ⟨fun h hname => ?_, fun h hname => absurd (volumeName_xmlText.mp hname) h⟩
      have hvol := volumeName_xmlText.mpr hname
      obtain ⟨heq, hself⟩ := (denotes_iff hvol).mp h
      rw [hself] at heq
      exact absurd heq.symm (by simp)
    | false =>
      simp only [Bool.false_eq_true, if_false, true_and]
      have hvol : VolumeName (xmlText (v.name ++ ".qcow2")) ↔ VolumeName v.name := by
        rw [volumeName_xmlText]
        exact ⟨VolumeName.of_append, fun h => h.append (by decide)⟩
      refine ⟨fun h hname => ((denotes_iff (hvol.mpr hname)).mp h).2, fun h hname => ?_⟩
      have hself := h (hvol.mp hname)
      exact (denotes_iff hname).mpr ⟨by rw [xmlText_append, hself, hend], hself⟩ hname
  · refine ⟨fun h hf => ((denotes_iff hf).mp h).1, fun h hf => ?_⟩
    obtain rfl := h hf
    have hself := hraw _ _ hread
    rw [xmlText_append, hend] at hself
    exact (denotes_iff hf).mpr ⟨rfl, append_right_cancel _ hself⟩ hf

theorem one_disk_web : OneDisk readPlain (sampleVM "web" "ubuntu" none) := by
  refine (one_disk_iff fun t f h => ?_).mpr ⟨fun _ => by decide, ?_⟩
  · unfold readPlain at h
    split at h
    · rename_i hall
      cases h
      refine String.toList_injective ?_
      rw [xmlText, String.toList_ofList]
      refine (List.map_congr_left fun c hc => if_pos ?_).trans (List.map_id' _)
      have hchar := List.all_eq_true.mp hall c hc
      simp only [Bool.and_eq_true] at hchar
      exact hchar.1.1
    · cases h
  · intro f hread _
    exact (Option.some.inj hread).symm

/-- **A name that looks like a file**: `CreateVolume` makes the disk `web.qcow2`, the domain boots
`web.qcow2.qcow2`, and it is not removed. **A name with a reference**: `CreateOverlayVolume` makes a disk of
another name, if the reader resolves it. -/
theorem disk_names_differ :
    Vm.validateVirtualMachine (sampleVM "web.qcow2" "ubuntu" none) = .ok () ∧
      ¬OneDisk readPlain (sampleVM "web.qcow2" "ubuntu" none) ∧
    Vm.validateVirtualMachine (sampleVM "a&amp;b" "ubuntu" none) = .ok () ∧
      ¬OneDisk (fun t => if t = "a&amp;b.qcow2" then some "a&b.qcow2" else readPlain t)
        (sampleVM "a&amp;b" "ubuntu" none) := by
  refine ⟨by decide +kernel, fun h => ?_, by decide +kernel, fun h => ?_⟩
  · have hvolume := creates_createVolume.mp (h.1 10)
    exact absurd ((denotes_iff (by decide)).mp hvolume).1 (by decide)
  · have hoverlay := creates_createOverlayVolume.mp (h.2 10 "" "") "a&b.qcow2" (if_pos rfl)
    exact absurd ((denotes_iff (by decide)).mp hoverlay).1 (by decide)

end Gomi.Volumes
