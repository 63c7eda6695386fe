import Gomi.Bootenv.Manager
import Gomi.Images.Handlers
import Gomi.Volumes.Agent

/-!
# Checksums

Four places compare a file with the checksum that it should have: the server that downloads an image,
the download of a boot environment, the upload of a backing volume and the agent of a hypervisor. Each
of them has its own way to read the checksum, and the agent has the strictest: it compares the text,
without the name of the algorithm, as it is. So they agree on a text that says something of the
content exactly if it is written as the agent wants it (`Gomi.Checksums.agree_iff`).
-/

namespace Gomi.Checksums

open Go

variable {text body : String} {content digest : List UInt8} {images : Images.Lib}
  {bootenv : Bootenv.Lib} {hash : Volumes.Hashing}

/-- The name of the algorithm. -/
def algorithm : String := "sha256:"

/-- A checksum without the spaces around it and the name of the algorithm. -/
def stripped (text : String) : String := trimSpace (trimPrefix (trimSpace text) algorithm)

/-- **What a checksum says**: it is a digest in hexadecimal, in whatever case. -/
def Names (text : String) (digest : List UInt8) : Prop := toLower (stripped text) = hexEncode digest

/-- The check of `uploadCloudImageBacking`. -/
def uploadAccepts (hash : Volumes.Hashing) (checksum body : String) : Bool :=
  trimSpace checksum = "" ∨ hexEncode (hash.sha256 body) = Volumes.normalizeSHA256 checksum

/-- The check of the agent, on an image that it has downloaded. -/
def agentAccepts (hash : Volumes.Hashing) (checksum body : String) : Bool :=
  checksum = "" ∨ hexEncode (hash.sha256 body) = trimPrefix checksum algorithm

/-- **The checkers agree with what a checksum says.** Only a boot environment needs to have one
(`Gomi.Bootenv.validateArtifact`). -/
structure Agree (images : Images.Lib) (bootenv : Bootenv.Lib) (hash : Volumes.Hashing)
    (content : List UInt8) (body text : String) (digest : List UInt8) : Prop where
  server : Images.matchesChecksum images text content = true ↔ stripped text = "" ∨ Names text digest
  bootenv : trimSpace text ≠ "" ∧ Bootenv.matchesDigest bootenv text content = true ↔
    Names text digest
  upload : uploadAccepts hash text body = true ↔ stripped text = "" ∨ Names text digest
  agent : agentAccepts hash text body = true ↔ stripped text = "" ∨ Names text digest

/-- A checksum in the form that the agent takes: nothing, or small digits with nothing around them but
the name of the algorithm before them. -/
def Canonical (text : String) : Prop :=
  text = "" ∨ stripped text ≠ "" ∧ trimPrefix text algorithm = toLower (stripped text)

/-! ### Digits -/

/-- A character that only a small or a capital letter of itself is folded to. -/
def Folds (c : Char) : Prop := c.toNat < 128 ∧ c ≠ 's' ∧ c ≠ 'i'

theorem foldRune_iff {c x : Char} (hc : Folds c) : foldRune x = c ↔ toLowerRune x = c := by
  obtain ⟨hascii, hs, hi⟩ := hc
  unfold foldRune toLowerRune
  split_ifs
  all_goals first | exact Iff.rfl | skip
  · omega
  · exact ⟨fun h => absurd h.symm hs, fun h => by subst h; omega⟩
  · exact ⟨fun h => by subst h; omega, fun h => absurd h.symm hi⟩

theorem map_foldRune_iff {t l : List Char} (hl : ∀ c ∈ l, Folds c) :
    t.map foldRune = l ↔ t.map toLowerRune = l := by
  induction t generalizing l with
  | nil => rfl
  | cons x t ih =>
    cases l with
    | nil => simp
    | cons c l =>
      simp only [List.map_cons, List.cons.injEq, foldRune_iff (hl c List.mem_cons_self),
        ih fun c hc => hl c (List.mem_cons_of_mem _ hc)]

theorem map_toLowerRune_hex :
    (hexEncode digest).toList.map toLowerRune = (hexEncode digest).toList := by
  refine (List.map_congr_left fun c hc => ?_).trans (List.map_id _)
  exact forall_mem_hexEncode (P := fun c => toLowerRune c = id c) (by decide) hc

theorem toLower_hexEncode : toLower (hexEncode digest) = hexEncode digest := by
  rw [toLower, map_toLowerRune_hex, String.ofList_toList]

/-- `strings.EqualFold`, of a digest: in small letters they are the same. -/
theorem equalFold_hexEncode :
    equalFold (hexEncode digest) text = true ↔ toLower text = hexEncode digest := by
  have hfolds : ∀ c ∈ (hexEncode digest).toList, Folds c :=
    fun _ => forall_mem_hexEncode (P := Folds) (by unfold Folds; decide)
  rw [equalFold, (map_foldRune_iff hfolds).mpr map_toLowerRune_hex, beq_iff_eq, eq_comm,
    map_foldRune_iff hfolds, toLower, ← String.toList_inj, String.toList_ofList]

theorem trimSpace_hexEncode : trimSpace (hexEncode digest) = hexEncode digest :=
  trimSpace_eq_self fun _ => forall_mem_hexEncode (P := (isSpace · = false)) (by decide)

theorem stripped_of (h : hasPrefix text algorithm = true ∨ trimSpace text = text) :
    stripped text = trimSpace (trimPrefix text algorithm) := by
  rcases h with h | h
  · exact trimSpace_trimPrefix h (by decide) (by decide) (by decide)
  · rw [stripped, h]

theorem stripped_of_trimPrefix (h : trimPrefix text algorithm = hexEncode digest) :
    stripped text = hexEncode digest := by
  rw [stripped_of, h, trimSpace_hexEncode]
  rcases hp : hasPrefix text algorithm with _ | _
  · rw [trimPrefix, hp] at h
    exact Or.inr (by rw [show text = hexEncode digest from h, trimSpace_hexEncode])
  · exact Or.inl rfl

/-- A digest has no name of an algorithm before it. -/
theorem not_hasPrefix (h : toLower text = hexEncode digest) : hasPrefix text algorithm = false := by
  by_contra hp
  obtain ⟨rest, hrest⟩ := List.isPrefixOf_iff_prefix.mp (Bool.eq_true_of_not_eq_false hp)
  have hmem : ':' ∈ (hexEncode digest).toList := by
    rw [← h, toLower, String.toList_ofList, ← hrest]
    exact List.mem_map_of_mem (List.mem_append_left rest (by decide : ':' ∈ algorithm.toList))
  exact forall_mem_hexEncode (P := (· ≠ ':')) (by decide) hmem rfl

/-! ### Agreement -/

theorem said_of_matchesDigest (hbootenv : bootenv.sha256 content = digest) (hne : trimSpace text ≠ "")
    (h : Bootenv.matchesDigest bootenv text content = true) :
    stripped text = "" ∨ Names text digest := by
  simp only [Bootenv.matchesDigest, hbootenv, decide_eq_true_eq, equalFold_hexEncode] at h
  cases hp : hasPrefix text algorithm with
  | true =>
    rw [Names, stripped_of (Or.inl hp)]
    exact h
  | false =>
    rw [show trimPrefix text "sha256:" = text by rw [trimPrefix, ← algorithm, hp]; rfl] at h
    have hlower := h.resolve_left hne
    refine Or.inr ?_
    rw [Names, stripped, trimPrefix, not_hasPrefix hlower]
    simpa using hlower

/-- **When the checkers agree**: the text says nothing of the content, or it is written as the agent
takes it. -/
theorem agree_iff (himages : images.sha256 content = digest) (hbootenv : bootenv.sha256 content = digest)
    (hhash : hash.sha256 body = digest) (hdigest : digest.length = 32) :
    Agree images bootenv hash content body text digest ↔
      (stripped text = "" ∨ Names text digest → Canonical text) := by
  have hempty : hexEncode digest ≠ "" := by
    obtain ⟨b, bs, rfl⟩ := List.exists_cons_of_length_eq_add_one hdigest
    exact fun h => by simpa [hexEncode, hexPair] using congrArg String.toList h
  have hserver : Images.matchesChecksum images text content = true ↔
      stripped text = "" ∨ Names text digest := by
    simp only [Images.matchesChecksum, himages, decide_eq_true_eq, equalFold_hexEncode]
    exact Iff.rfl
  have hupload : uploadAccepts hash text body = true ↔ trimSpace text = "" ∨ Names text digest := by
    rw [uploadAccepts, decide_eq_true_eq, hhash, eq_comm (a := hexEncode digest)]
    exact Iff.rfl
  have hagent : agentAccepts hash text body = true ↔
      text = "" ∨ trimPrefix text algorithm = hexEncode digest := by
    rw [agentAccepts, decide_eq_true_eq, hhash, eq_comm (a := hexEncode digest)]
  have hblank : trimSpace text = "" → stripped text = "" := by
    intro h
    rw [stripped, h]
    decide
  constructor
  · intro h hsaid
    refine (hagent.mp (h.agent.mpr hsaid)).imp_right fun heq => ?_
    rw [stripped_of_trimPrefix heq, toLower_hexEncode]
    exact ⟨hempty, heq⟩
  · intro hcanonical
    by_cases hsaid : stripped text = "" ∨ Names text digest
    · rcases hcanonical hsaid with rfl | ⟨hne, heq⟩
      · exact ⟨hserver, iff_of_false (fun h => h.1 rfl) fun h => hempty h.symm,
          iff_of_true (hupload.mpr (Or.inl rfl)) hsaid, iff_of_true (hagent.mpr (Or.inl rfl)) hsaid⟩
      · have hnames := hsaid.resolve_left hne
        rw [hnames] at heq
        refine ⟨hserver, iff_of_true ⟨fun h => hne (hblank h), ?_⟩ hnames,
          iff_of_true (hupload.mpr (Or.inr hnames)) hsaid, iff_of_true (hagent.mpr (Or.inr heq)) hsaid⟩
        simp only [Bootenv.matchesDigest, hbootenv, decide_eq_true_eq, equalFold_hexEncode]
        exact Or.inr (by rw [← algorithm, heq, trimSpace_hexEncode, toLower_hexEncode])
    · -- what says something else is accepted nowhere
      refine ⟨hserver, iff_of_false (fun h => hsaid (said_of_matchesDigest hbootenv h.1 h.2))
        fun h => hsaid (Or.inr h), iff_of_false (fun h => hsaid ((hupload.mp h).imp_left hblank)) hsaid,
        iff_of_false (fun h => hsaid ?_) hsaid⟩
      rcases hagent.mp h with rfl | heq
      · exact Or.inl rfl
      · exact Or.inr (by rw [Names, stripped_of_trimPrefix heq, toLower_hexEncode])

/-- **The check of an upload**: a volume is uploaded only with a content that was accepted. -/
theorem uploadCloudImageBacking_accepts (img : Volumes.Image) (name format : String) :
    (Volumes.uploadCloudImageBacking hash img name format).Obeys (fun _ _ => True)
      (fun cs r => r = .ok () → ∃ resp, ⟨.getURL (trimSpace img.url), Except.ok resp⟩ ∈ cs ∧
        uploadAccepts hash img.checksum resp.body = true) [] := by
  refine .ite (fun _ => .pure (by simp)) fun _ => .perform_bind trivial fun url => ?_
  match url with
  | none => exact .pure (by simp)
  | some (scheme, host) =>
  refine .ite (fun _ => .pure (by simp)) fun _ => .ite (fun _ => .pure (by simp)) fun _ => ?_
  refine .perform_bind trivial fun r => ?_
  match r with
  | .error e => exact .pure (by simp [Volumes.uploadFailed])
  | .ok resp =>
  refine .ite (fun _ => .pure (by simp [Volumes.uploadFailed])) fun _ => ?_
  refine .ite (fun _ => .pure (by simp [Volumes.uploadFailed])) fun _ => ?_
  refine (Prog.Obeys.of_forall (Q := fun _ _ => True) (by simp) (by simp)).bind fun cs r hcs _ => ?_
  match r with
  | .error e => exact .pure (by simp)
  | .ok _ =>
  refine .ite (fun _ => ?_) fun hmatch => .pure fun _ => ⟨resp, hcs.subset (by simp), ?_⟩
  · refine (Prog.Obeys.of_forall (Q := fun _ _ => True) (by simp) (by simp)).bind fun cs r _ _ => ?_
    match r with
    | .error e | .ok _ => exact .pure (by simp)
  · simpa [uploadAccepts, imp_iff_not_or] using hmatch

/-- The check of the agent, on a file that it reads. -/
theorem verifyChecksum_path (p : Volumes.FilePath) (hne : text ≠ "") :
    Prog.Path (Volumes.verifyChecksum hash p text) [⟨.readFile p, some body⟩]
      (.ret (agentAccepts hash text body)) := by
  simp only [agentAccepts, hne, false_or]
  exact .cons (.nil _)

/-- A digest. -/
def sampleDigest : List UInt8 := List.replicate 32 170

def sampleImages : Images.Lib := ⟨fun _ => sampleDigest, fun _ => none⟩

def sampleBootenv : Bootenv.Lib := ⟨fun _ => sampleDigest, fun _ => none, fun _ _ _ => [], fun _ => none⟩

def sampleHash : Volumes.Hashing := ⟨fun _ => sampleDigest, fun _ => ""⟩

/-- A digest with the name of its algorithm. -/
theorem agree_digest : Agree sampleImages sampleBootenv sampleHash [] ""
    ("sha256:" ++ hexEncode sampleDigest) sampleDigest :=
  (agree_iff rfl rfl rfl rfl).mpr fun _ => Or.inr (by decide)

/-- **A digest in capital letters** is accepted by the server and not by the agent, and for a boot
environment the name of the algorithm is enough. -/
theorem capitals_rejected : ∃ text, Names text sampleDigest ∧
    Images.matchesChecksum sampleImages text [] = true ∧ agentAccepts sampleHash text "" = false ∧
    ¬Agree sampleImages sampleBootenv sampleHash [] "" text sampleDigest ∧
    Bootenv.matchesDigest sampleBootenv algorithm [] = true ∧
    ¬Agree sampleImages sampleBootenv sampleHash [] "" algorithm sampleDigest := by
  have hnames : Names (String.ofList (List.replicate 64 'A')) sampleDigest := by
    unfold Names
    decide
  have hagent : agentAccepts sampleHash (String.ofList (List.replicate 64 'A')) "" = false := by decide
  refine ⟨_, hnames, by decide, hagent, fun h => ?_, by decide, fun h => ?_⟩
  · cases hagent.symm.trans (h.agent.mpr (Or.inr hnames))
  · have habsurd := h.bootenv.mp (by decide)
    unfold Names at habsurd
    exact absurd habsurd (by decide)

end Gomi.Checksums
