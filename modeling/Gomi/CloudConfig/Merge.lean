import Gomi.CloudConfig.Bootstrap

/-!
# Merging a bootstrap into the user-data

`gomi-merge-bootstrap` puts the user-data of the server and the decrypted bootstrap together. The server
has marked the command that reports completion in what it rendered; the script takes this command out,
appends the commands of the bootstrap and a guard, and puts it last. Lists that are in both documents
are joined, and the rest of the user-data stays unless the bootstrap has something else.

What the host then does with a text depends on the document that it is in: in a template it is
rendered by Jinja, elsewhere it is taken as it is. The merged document is a template exactly if the
bootstrap is one, whatever the user-data was. So a text of the other document keeps its meaning only if
both are templates, or none is, or Jinja does not change it (`Gomi.CloudConfig.merge_kept_iff`). Besides,
one key is set by the script itself.

Into a template the script writes a text with a comment before and after it, where a tag of the text
would trim what is around it. That is harmless at the start. At the end the script looks for the two
characters that close a tag after a hyphen, and strips the space after them whether they close one or
not; so such a text has to mean the same without this space. Of Jinja only three facts are assumed
(`Gomi.CloudConfig.Renders`).
-/

namespace Gomi.CloudConfig

open Go Python

variable {commands front back : List Yaml} {content command source : String} {entry : Yaml}
  {seed : Seed}

/-! ### The mark of the server -/

/-- Whether an entry is a command that reports completion. -/
def reports : Yaml → Bool
  | .text command => isCallback command
  | _ => false

theorem markCommands_cons_of_callback (h : isCallback command = true) :
    markCommands (.text command :: commands) =
      (.text (markCommand command) :: (markCommands commands).1, (markCommands commands).2 + 1) := by
  simp [markCommands, h]

theorem markCommands_cons_of_not (h : reports entry = false) :
    markCommands (entry :: commands) =
      (entry :: (markCommands commands).1, (markCommands commands).2) := by
  cases entry with
  | text command =>
    have hnot : isCallback command = false := h
    simp [markCommands, hnot]
  | scalar => rfl
  | list => rfl
  | map => rfl

theorem exists_of_reports (h : reports entry = true) :
    ∃ command, entry = .text command ∧ isCallback command = true := by
  cases entry with
  | text command => exact ⟨command, rfl, h⟩
  | scalar => cases h
  | list => cases h
  | map => cases h

/-- Nothing is marked where nothing reports completion. -/
theorem markCommands_zero (h : (markCommands commands).2 = 0) :
    (markCommands commands).1 = commands ∧ ∀ c ∈ commands, reports c = false := by
  induction commands with
  | nil => exact ⟨rfl, by simp⟩
  | cons entry commands ih =>
    cases hentry : reports entry with
    | true =>
      obtain ⟨command, rfl, hcallback⟩ := exists_of_reports hentry
      rw [markCommands_cons_of_callback hcallback] at h
      cases h
    | false =>
      rw [markCommands_cons_of_not hentry] at h ⊢
      obtain ⟨hmarked, hnone⟩ := ih h
      refine ⟨by rw [hmarked], fun c hc => ?_⟩
      rcases List.mem_cons.mp hc with rfl | hc
      · exact hentry
      · exact hnone c hc

/-- **The one command that is marked**: everything else stays as it is. -/
theorem markCommands_one (h : (markCommands commands).2 = 1) :
    ∃ front command back, commands = front ++ .text command :: back ∧ isCallback command = true ∧
      (∀ c ∈ front ++ back, reports c = false) ∧
      (markCommands commands).1 = front ++ .text (markCommand command) :: back := by
  induction commands with
  | nil => cases h
  | cons entry commands ih =>
    cases hentry : reports entry with
    | true =>
      obtain ⟨command, rfl, hcallback⟩ := exists_of_reports hentry
      rw [markCommands_cons_of_callback hcallback] at h ⊢
      obtain ⟨hmarked, hnone⟩ := markCommands_zero (Nat.succ.inj h)
      exact ⟨[], command, commands, rfl, hcallback, hnone, by rw [hmarked]; rfl⟩
    | false =>
      rw [markCommands_cons_of_not hentry] at h ⊢
      obtain ⟨front, command, back, rfl, hcallback, hnone, hmarked⟩ := ih h
      refine ⟨entry :: front, command, back, rfl, hcallback, fun c hc => ?_, by rw [hmarked]; rfl⟩
      rcases List.mem_cons.mp hc with rfl | hc
      · exact hentry
      · exact hnone c hc

variable {lib : YamlLib}

/-! ### The merge -/

/-- The one command that reports completion, and the commands without it. -/
theorem filter_completion {completion : String} (hmark : startsWith command completionMark = true)
    (h : (front ++ .text command :: back).filterMap completion? = [completion]) :
    completion = command ∧
      ((front ++ .text command :: back).filter fun c => !c.isText completion) = front ++ back := by
  have hcommand := completion_of_mark hmark
  rw [List.filterMap_append, List.filterMap_cons_some hcommand] at h
  obtain ⟨hfront, hrest⟩ : front.filterMap completion? = [] ∧
      command :: back.filterMap completion? = [completion] := by
    cases hf : front.filterMap completion? with
    | nil => exact ⟨rfl, by simpa [hf] using h⟩
    | cons => simp [hf] at h
  obtain ⟨rfl, hback⟩ := List.cons.inj hrest
  -- an entry that is this command would have been found
  have hother : ∀ {l : List Yaml}, l.filterMap completion? = [] →
      (l.filter fun c => !c.isText command) = l := by
    intro l hl
    refine List.filter_eq_self.mpr fun c hc => ?_
    have hnone := List.filterMap_eq_nil_iff.mp hl c hc
    cases c with
    | text t =>
      by_cases ht : t = command
      · rw [ht, hcommand] at hnone
        cases hnone
      · simp [Yaml.isText, ht]
    | scalar => rfl
    | list => rfl
    | map => rfl
  refine ⟨rfl, ?_⟩
  rw [List.filter_append, List.filter_cons_of_neg (by simp [Yaml.isText]), hother hfront, hother hback]

/-- **What a merged mapping has at each key.** -/
theorem mergeMappings_eq_ok {base bootstrap merged : Mapping}
    (hmark : startsWith command completionMark = true)
    (hbase : base.get (.text "runcmd") = some (.list (front ++ .text command :: back)))
    (h : mergeMappings base bootstrap = .ok merged) :
    ∃ commands, (bootstrap.get (.text "runcmd")).getD (.list []) = .list commands ∧
      merged.get (.text "runcmd") = some (.list (front ++ back ++ commands ++
        [.text successGuard] ++ [.text command])) ∧
      merged.get (.text "ssh_deletekeys") = some (.scalar (.bool false)) ∧
      ∀ k, k ≠ .text "runcmd" → k ≠ .text "ssh_deletekeys" →
        merged.get k = match bootstrap.get k with
          | none => base.get k
          | some v => (mergeEntry k (base.get k) v).or (base.get k) := by
  unfold mergeMappings at h
  rw [hbase, Option.getD_some] at h
  split at h
  · rename_i _ _ baseCommands commands hcommands hboot
    obtain rfl := Yaml.list.inj hcommands
    split at h
    · rename_i completion hcompletion
      obtain ⟨rfl, hothers⟩ := filter_completion hmark hcompletion
      cases h
      refine ⟨commands, hboot, ?_, ?_, fun k hruncmd hssh => ?_⟩
      · rw [hothers]
        simp
      · simp
      · rw [Dict.get_set, if_neg (Ne.symm hssh), Dict.get_set, if_neg (Ne.symm hruncmd), Dict.get_update]
        cases bootstrap.get k <;> rfl
    · cases h
  · cases h

/-! ### Rendering -/

/-- Whether a document is a Jinja template. -/
def isTemplate (text : String) : Bool := startsWith (lstrip text) jinjaTemplateHeader

/-- What is taken for a text in a document, with the function by which Jinja renders a text in it, if it
takes it for a template at all. -/
def taken (render : String → Option String) (template : Bool) (text : String) : Option String :=
  if template then render text else some text

/-- **What is known of Jinja**: a comment before or after a text is removed, and a tag at the start of a
text that opens with a hyphen removes the space before it. -/
structure Renders (render : String → Option String) : Prop where
  comment_append : ∀ t, lstrip t = t → render (boundary ++ t) = render t
  append_comment : ∀ t r, rstrip t = t → endsWith t "\x7b" = false → render t = some r →
    render (t ++ boundary) = some r
  trim : ∀ t, opensTrimming t = true → render (lstrip t) = render t

/-- The condition on a text of a document that becomes a part of another one: it is rendered as before,
or to itself. If it ends as a tag does that closes with a hyphen, then the space after it is stripped
before Jinja sees it, and it has to be rendered without this space to what it was taken for. -/
structure SameText (render : String → Option String) (own merged : Bool) (text : String) : Prop where
  kind : merged = false ∨ closesTrimming text = false → merged = own ∨ render text = some text
  tail : merged = true → closesTrimming text = true → render (rstrip text) = taken render own text

/-- No text that ends as a tag that closes with a hyphen leaves a tag open. -/
def Closed (render : String → Option String) (texts : List String) : Prop :=
  ∀ t ∈ texts, closesTrimming t = true → (render (rstrip t)).isSome = true

variable {t : String}

/-- A text that opens with a hyphen, stripped, opens with it still. -/
theorem opensTrimming_rstrip (h : opensTrimming t = true) : opensTrimming (rstrip t) = true := by
  obtain ⟨mark, hmem, hmark⟩ := List.any_eq_true.mp h
  refine List.any_eq_true.mpr ⟨mark, hmem, ?_⟩
  obtain ⟨rest, hrest⟩ := startsWith_iff.mp hmark
  have hstable : rstrip mark = mark := by
    simp only [List.mem_cons, List.not_mem_nil, or_false] at hmem
    rcases hmem with rfl | rfl | rfl <;> decide
  have hcore : lstrip t = mark ++ String.ofList rest := by
    rw [← String.toList_inj, String.toList_append, String.toList_ofList, hrest]
  rw [lstrip_rstrip, hcore, rstrip_append hstable]
  exact startsWith_append

/-- A text that opens with a hyphen is at least as long as a tag that closes. -/
theorem le_length_of_opensTrimming (h : opensTrimming t = true) : 3 ≤ (lstrip t).length := by
  obtain ⟨mark, hmem, hmark⟩ := List.any_eq_true.mp h
  obtain ⟨rest, hrest⟩ := startsWith_iff.mp hmark
  rw [← String.length_toList, hrest, List.length_append]
  simp only [List.mem_cons, List.not_mem_nil, or_false] at hmem
  rcases hmem with rfl | rfl | rfl <;> exact Nat.le_add_right 3 _

theorem rstrip_boundary_append : rstrip (boundary ++ t) = boundary ++ rstrip t :=
  rstrip_append (by decide)

/-- What is before a text that opens with a hyphen makes no difference to its end. -/
theorem closesTrimming_boundary (h : opensTrimming t = true) :
    closesTrimming (boundary ++ lstrip t) = closesTrimming t := by
  have hlength := le_length_of_opensTrimming (opensTrimming_rstrip h)
  rw [lstrip_rstrip] at hlength
  obtain ⟨space, hspace⟩ : ∃ space, rstrip t = space ++ rstrip (lstrip t) := by
    rw [← lstrip_rstrip]
    refine ⟨String.ofList ((rstrip t).toList.takeWhile Python.isSpace), ?_⟩
    rw [lstrip, ← String.ofList_append, List.takeWhile_append_dropWhile, String.ofList_toList]
  rw [closesTrimming, closesTrimming, rstrip_boundary_append, hspace]
  generalize rstrip (lstrip t) = core at hlength
  have hclose : ∀ (before close : String), close.length = 3 →
      endsWith (before ++ core) close = endsWith core close :=
    fun before close h => endsWith_append (h ▸ hlength)
  simp only [List.any_cons, List.any_nil, Bool.or_false, hclose _ "-\x7d\x7d" rfl,
    hclose _ "-%\x7d" rfl, hclose _ "-#\x7d" rfl]

/-- A text that closes with a hyphen ends in no brace that opens. -/
theorem endsWith_brace (h : closesTrimming t = true) : endsWith (rstrip t) "\x7b" = false := by
  obtain ⟨close, hmem, hclose⟩ := List.any_eq_true.mp h
  rw [endsWith, List.isSuffixOf_iff_suffix] at hclose
  obtain ⟨front, hfront⟩ := hclose
  have hend : rstrip t = String.ofList front ++ close := by
    rw [← String.toList_inj, String.toList_append, String.toList_ofList, hfront]
  simp only [List.mem_cons, List.not_mem_nil, or_false] at hmem
  rcases hmem with rfl | rfl | rfl
  · rw [hend, endsWith_append (by decide)]
    decide
  · rw [hend, endsWith_append (by decide)]
    decide
  · rw [hend, endsWith_append (by decide)]
    decide

/-- **What is written into a template for a text is rendered** as the text is, or as the text without
the space at its end. -/
theorem render_representedValue {render : String → Option String} (hrender : Renders render)
    (hclosed : closesTrimming t = true → (render (rstrip t)).isSome = true) :
    render (representedValue true t) = if closesTrimming t then render (rstrip t) else render t := by
  cases hopens : opensTrimming t with
  | false =>
    have hvalue : representedValue true t = if closesTrimming t then rstrip t ++ boundary else t := by
      simp only [representedValue, hopens, if_true, Bool.false_eq_true, if_false]
    rw [hvalue]
    cases hcloses : closesTrimming t with
    | false => rfl
    | true =>
      obtain ⟨r, hr⟩ := Option.isSome_iff_exists.mp (hclosed hcloses)
      rw [if_pos rfl, if_pos rfl, hr]
      exact hrender.append_comment _ r rstrip_rstrip (endsWith_brace hcloses) hr
  | true =>
    have hvalue : representedValue true t = if closesTrimming t
        then boundary ++ rstrip (lstrip t) ++ boundary else boundary ++ lstrip t := by
      simp only [representedValue, hopens, if_true, closesTrimming_boundary hopens,
        rstrip_boundary_append]
    rw [hvalue]
    cases hcloses : closesTrimming t with
    | false =>
      rw [if_neg Bool.false_ne_true, if_neg Bool.false_ne_true]
      exact (hrender.comment_append _ lstrip_lstrip).trans (hrender.trim t hopens)
    | true =>
      obtain ⟨r, hr⟩ := Option.isSome_iff_exists.mp (hclosed hcloses)
      -- the comment in front makes no difference to the text that is stripped at its end
      have hfront : render (boundary ++ rstrip (lstrip t)) = some r := by
        rw [← lstrip_rstrip, hrender.comment_append _ lstrip_lstrip,
          hrender.trim _ (opensTrimming_rstrip hopens), hr]
      have hend := endsWith_brace ((closesTrimming_boundary hopens).trans hcloses)
      rw [rstrip_boundary_append] at hend
      rw [if_pos rfl, if_pos rfl, hr]
      exact hrender.append_comment _ r (by rw [rstrip_boundary_append, rstrip_rstrip]) hend hfront

/-- **A text is taken for what it was** exactly under this condition. -/
theorem taken_merged_iff {render : String → Option String} (hrender : Renders render)
    {own merged : Bool}
    (hclosed : merged = true → closesTrimming t = true → (render (rstrip t)).isSome = true) :
    taken render merged (representedValue merged t) = taken render own t ↔
      SameText render own merged t := by
  cases merged with
  | false =>
    have hvalue : taken render false (representedValue false t) = some t := rfl
    rw [hvalue]
    cases own with
    | false => exact ⟨fun _ => ⟨fun _ => Or.inl rfl, fun h => by cases h⟩, fun _ => rfl⟩
    | true =>
      refine ⟨fun h => ⟨fun _ => Or.inr h.symm, fun h => by cases h⟩, fun h => ?_⟩
      rcases h.kind (Or.inl rfl) with h | h
      · cases h
      · exact h.symm
  | true =>
    have hvalue : taken render true (representedValue true t) = render (representedValue true t) := rfl
    rw [hvalue, render_representedValue hrender (hclosed rfl)]
    cases hcloses : closesTrimming t with
    | true =>
      rw [if_pos rfl]
      refine ⟨fun h => ⟨fun hopen => ?_, fun _ _ => h⟩, fun h => h.tail rfl hcloses⟩
      rw [hcloses] at hopen
      rcases hopen with hopen | hopen <;> cases hopen
    | false =>
      rw [if_neg (by simp)]
      have hkind : render t = taken render own t ↔ true = own ∨ render t = some t := by
        cases own
        · simp [taken]
        · simp [taken]
      rw [hkind]
      refine ⟨fun h => ⟨fun _ => h, fun _ hclose => ?_⟩, fun h => h.kind (Or.inr hcloses)⟩
      rw [hcloses] at hclose
      cases hclose

/-! ### The documents -/

/-- Whether an entry of the user-data is a part of the result. -/
def survives (bootstrap : Mapping) (e : Key × Yaml) : Bool :=
  if e.1 = .text "runcmd" then true
  else if e.1 = .text "ssh_deletekeys" then false
  else match bootstrap.get e.1, e.2 with
    | none, _ => true
    | some (.list _), .list _ => true
    | _, _ => false

/-- The texts of the user-data that are a part of the result. -/
def survivingTexts (base bootstrap : Mapping) : List String :=
  Yaml.entryTexts (base.entries.filter (survives bootstrap))

/-- The texts of the bootstrap that are a part of the result. -/
def bootstrapTexts (bootstrap : Mapping) : List String :=
  Yaml.entryTexts (bootstrap.entries.filter fun e => e.1 ≠ .text "ssh_deletekeys")

/-- **Merging keeps both documents and completes last**: the commands of the server without the one
that reports completion, the commands of the bootstrap, the guard and the command that reports
completion; the lists of both; the rest of the user-data; and the kind of every text. -/
structure Kept (lib : YamlLib) (render : String → Option String) (body source : String) (seed : Seed)
    (base bootstrap : Mapping) (merged : Merged) : Prop where
  commands : ∃ cfg front command back commands, lib.unmarshal body = .ok (some cfg) ∧
    cfg.get (.text "runcmd") = some (.list (front ++ .text command :: back)) ∧
    isCallback command = true ∧ (∀ c ∈ front ++ back, reports c = false) ∧
    (bootstrap.get (.text "runcmd")).getD (.list []) = .list commands ∧
    merged.config.get (.text "runcmd") = some (.list (front ++ back ++ commands ++
      [.text successGuard] ++ [.text (markCommand command)]))
  lists : ∀ k, k ≠ .text "runcmd" → ∀ xs ys, base.get k = some (.list xs) →
    bootstrap.get k = some (.list ys) → merged.config.get k = some (.list (xs ++ ys))
  others : ∀ k, k ≠ .text "runcmd" → ∀ v, base.get k = some v → bootstrap.get k = none →
    merged.config.get k = some v
  baseTexts : ∀ t ∈ survivingTexts base bootstrap,
    taken render merged.jinja (representedValue merged.jinja t) =
      taken render (isTemplate seed.userData) t
  bootstrapTexts : ∀ t ∈ bootstrapTexts bootstrap,
    taken render merged.jinja (representedValue merged.jinja t) = taken render (isTemplate source) t

/-- The condition on the two documents: the user-data does not set the key that the script sets, and
the texts of both are of the kind that the start of the bootstrap says. -/
structure Uniform (render : String → Option String) (source : String) (seed : Seed)
    (base bootstrap : Mapping) : Prop where
  key : ∀ v, base.get (.text "ssh_deletekeys") = some v →
    (bootstrap.get (.text "ssh_deletekeys") = none → v = .scalar (.bool false)) ∧
    ∀ xs ys, v = .list xs → bootstrap.get (.text "ssh_deletekeys") ≠ some (.list ys)
  base : ∀ t ∈ survivingTexts base bootstrap,
    SameText render (isTemplate seed.userData) (startsWith source jinjaTemplateHeader) t
  bootstrap : ∀ t ∈ bootstrapTexts bootstrap,
    SameText render (isTemplate source) (startsWith source jinjaTemplateHeader) t

/-- Python reads from the user-data the mapping that the server rendered it from. -/
def ReadBack (lib : YamlLib) (body : String) (base : Mapping) : Prop :=
  ∀ cfg commands, lib.unmarshal body = .ok (some cfg) →
    cfg.get (.text "runcmd") = some (.list commands) →
    ∀ k, base.get k = (cfg.set (.text "runcmd") (.list (markCommands commands).1)).get k

/-- A command that reports completion, of the shape that the server adds to user-data. -/
def sampleCallback : String := "sh -c 'for i in 1; do curl /install-complete?t; done'"

/-- A text with an expression. -/
def hostnameText : String := "\x7b\x7b v1.local_hostname \x7d\x7d"

/-- A text of the shell that looks like the start of a comment. -/
def lengthText : String := "echo $\x7b#a\x7d"

/-- User-data with a file, and with the command that reports completion as it is given. -/
def sampleConfig (content callback : String) : Mapping where
  entries := [
    (.text "runcmd",
      .list [.text "prepare", .text callback]),
    (.text "write_files",
      .list [.map [(.text "content", .text content), (.text "path", .text "/etc/node")]])]
  nodup := by
    show [Key.text "runcmd", Key.text "write_files"].Nodup
    decide

/-- A bootstrap with one command. -/
def sampleBootstrap : Mapping := .single "runcmd" (.list [.text "join"])

/-- A bootstrap that is a template. -/
def templateSource : String := "## template: jinja\n#cloud-config\nruncmd:\n- join\n"

/-- A bootstrap that is none. -/
def plainSource : String := "#cloud-config\nruncmd:\n- join\n"

/-- The metadata of the server. -/
def sampleMetadata : Mapping := .single "instance-id" (.text "gomi-host")

/-- The seed of the server. -/
def mergeSeed (header content : String) : Seed where
  userData := header ++ "\n" ++ (sampleConfig content (markCommand sampleCallback)).write "    " goText
  metaData := "instance-id: gomi-host\n"

/-- The start of the user-data. -/
theorem startsWith_mergeSeed {header : String} :
    startsWith (mergeSeed header content).userData (header ++ "\nruncmd:\n    - prepare\n") = true := by
  have hwrite : ∃ rest, (sampleConfig content (markCommand sampleCallback)).write "    " goText =
      "runcmd:\n" ++ ("    - prepare\n" ++ rest) := ⟨_, rfl⟩
  obtain ⟨rest, hrest⟩ := hwrite
  have hstart : (mergeSeed header content).userData =
      header ++ "\nruncmd:\n    - prepare\n" ++ rest := by
    have hlines : "\nruncmd:\n    - prepare\n" = "\n" ++ "runcmd:\n" ++ "    - prepare\n" := by decide
    rw [mergeSeed, hrest, hlines]
    simp only [String.append_assoc]
  rw [hstart]
  exact startsWith_append

/-- YAML libraries that read the documents of a sample. -/
def mergeYaml (content : String) : YamlLib :=
  writing (fun _ => .ok (some (sampleConfig content sampleCallback))) fun text =>
    if text = "instance-id: gomi-host\n" then .ok (.map sampleMetadata)
    else if text = templateSource ∨ text = plainSource then .ok (.map sampleBootstrap)
    else .ok (.map (sampleConfig content (markCommand sampleCallback)))

/-- A function for which what is known of Jinja is true: it writes the characters of a text that are
neither space nor in the comment. -/
def sampleRender (t : String) : Option String :=
  some (String.ofList (t.toList.filter fun c => !Python.isSpace c && c ∉ boundary.toList))

theorem renders_sampleRender : Renders sampleRender := by
  have hcomment : (boundary.toList.filter fun c => !Python.isSpace c && c ∉ boundary.toList) = [] := by
    decide
  refine ⟨fun t _ => ?_, fun t r _ _ h => ?_, fun t _ => ?_⟩
  · rw [sampleRender, String.toList_append, List.filter_append, hcomment]
    rfl
  · rw [← h, sampleRender, String.toList_append, List.filter_append, hcomment, List.append_nil]
    rfl
  · have hsplit : t.toList = t.toList.takeWhile Python.isSpace ++ (lstrip t).toList := by
      rw [lstrip, String.toList_ofList, List.takeWhile_append_dropWhile]
    have hspace : ((t.toList.takeWhile Python.isSpace).filter fun c =>
        !Python.isSpace c && c ∉ boundary.toList) = [] :=
      List.filter_eq_nil_iff.mpr fun c hc => by simp [List.mem_takeWhile_imp hc]
    rw [sampleRender, sampleRender, hsplit, List.filter_append, hspace, List.nil_append]

/-- User-data that is a template, with an expression. -/
def templateSeed : Seed := mergeSeed "## template: jinja\n#cloud-config" hostnameText

/-- User-data that is none, with a text that looks like the start of a comment. -/
def plainSeed : Seed := mergeSeed "#cloud-config" lengthText

/-- What the script reads and merges in a sample. -/
structure SampleReads (content source : String) (seed : Seed) (merged : Merged) : Prop where
  base : (mergeYaml content).safeLoad (universalNewlines seed.userData) =
    .ok (.map (sampleConfig content (markCommand sampleCallback)))
  bootstrap : (mergeYaml content).safeLoad (universalNewlines source) = .ok (.map sampleBootstrap)
  merged : mergeFiles (mergeYaml content) source seed "capi-a" = .ok merged

/-- The headers of the server. -/
def sampleHeaders : List String := ["#cloud-config", "## template: jinja\n#cloud-config"]

/-- User-data is taken for no other document. -/
theorem userData_ne {header other : String} (hheader : header ∈ sampleHeaders)
    (hother : other ∈ ["instance-id: gomi-host\n", templateSource, plainSource]) :
    universalNewlines (mergeSeed header content).userData ≠ other := by
  have hcr : ∀ header ∈ sampleHeaders,
      '\r' ∉ (header ++ "\nruncmd:\n    - prepare\n").toList := by decide
  have hstart := startsWith_universalNewlines_of (hcr header hheader) (@startsWith_mergeSeed content _)
  have hnone : ∀ header ∈ sampleHeaders,
      ∀ other ∈ ["instance-id: gomi-host\n", templateSource, plainSource],
      startsWith other (header ++ "\nruncmd:\n    - prepare\n") = false := by decide
  rintro heq
  rw [heq, hnone header hheader other hother] at hstart
  cases hstart

/-- Every bootstrap of the samples is merged into every user-data. -/
theorem exists_sampleReads {header : String} (hheader : header ∈ sampleHeaders)
    (hsource : source = templateSource ∨ source = plainSource) :
    ∃ merged, SampleReads content source (mergeSeed header content) merged := by
  have hread : universalNewlines source = source ∧ source ≠ "instance-id: gomi-host\n" ∧
      supported source = true := by
    rcases hsource with rfl | rfl <;> decide
  obtain ⟨hread, hmeta, hsupported⟩ := hread
  have hbase : (mergeYaml content).safeLoad (universalNewlines (mergeSeed header content).userData) =
      .ok (.map (sampleConfig content (markCommand sampleCallback))) := by
    have hother : ¬(universalNewlines (mergeSeed header content).userData = templateSource ∨
        universalNewlines (mergeSeed header content).userData = plainSource) := not_or.mpr
      ⟨userData_ne hheader (by simp), userData_ne hheader (by simp)⟩
    simp only [mergeYaml, writing, if_neg hother,
      if_neg (userData_ne hheader (List.mem_cons_self ..))]
  have hboot : (mergeYaml content).safeLoad (universalNewlines source) = .ok (.map sampleBootstrap) := by
    rw [hread]
    simp only [mergeYaml, writing, if_neg hmeta, if_pos hsource]
  have hmetadata : (mergeYaml content).safeLoad
      (universalNewlines (mergeSeed header content).metaData) = .ok (.map sampleMetadata) := by
    have hread : universalNewlines "instance-id: gomi-host\n" = "instance-id: gomi-host\n" := by decide
    rw [mergeSeed, hread]
    simp only [mergeYaml, writing, if_true]
  have hcompletion : [Yaml.text "prepare",
      .text (markCommand sampleCallback)].filterMap completion? = [markCommand sampleCallback] := by
    decide +kernel
  have hlisted : ListedCommands sampleBootstrap := by
    rintro v hv
    cases hv
    exact ⟨_, rfl⟩
  obtain ⟨config, hconfig⟩ := (exists_mergeMappings_iff
    (show (sampleConfig content (markCommand sampleCallback)).get (.text "runcmd") = _ from rfl)
    hcompletion).mpr hlisted
  have hresult : mergeMetadata (.map sampleMetadata) "capi-a" =
      .ok (sampleMetadata.set (.text "instance-id") (.text "capi-a")) := by
    rw [mergeMetadata, if_pos (by decide)]
  exact ⟨⟨_, config, _⟩, hbase, hboot, (mergeFiles_eq_ok _).mpr ⟨hread.symm ▸ hsupported, rfl, _, _, _,
    hbase, hboot, hconfig, hmetadata, hresult⟩⟩

/-- Whether a merged sample is a template. -/
theorem SampleReads.jinja {merged : Merged} (h : SampleReads content source seed merged) :
    merged.jinja = startsWith source jinjaTemplateHeader := by
  obtain ⟨-, hjinja, -⟩ := (mergeFiles_eq_ok _).mp h.merged
  rwa [startsWith_universalNewlines (by decide) (by decide)] at hjinja

/-- The texts of a sample. -/
def sampleTexts (content : String) : List String :=
  survivingTexts (sampleConfig content (markCommand sampleCallback)) sampleBootstrap ++
    bootstrapTexts sampleBootstrap

theorem get_sampleConfig_ssh (content callback : String) :
    (sampleConfig content callback).get (.text "ssh_deletekeys") = none := by
  simp [sampleConfig, Dict.get, Dict.find]

theorem markCommands_sample : markCommands [.text "prepare", .text sampleCallback] =
    ([.text "prepare", .text (markCommand sampleCallback)], 1) := by
  rw [markCommands_cons_of_not (show reports _ = false by decide),
    markCommands_cons_of_callback (by decide)]
  rfl

/-- The server marks its command. -/
theorem markSealedCompletion_sample (content body header : String)
    (hheader : (splitCloudConfigHeader (trimSpace body)).1 = header) :
    markSealedCompletion (mergeYaml content) body = .ok (mergeSeed header content).userData := by
  have hmark : markSealedCompletion (mergeYaml content) body = (do
      failIf ((markCommands [.text "prepare", .text sampleCallback]).2 ≠ 1)
        (.msg "missing unique deployment completion callback")
      renderCloudConfig (mergeYaml content) body ((sampleConfig content sampleCallback).set
        (.text "runcmd") (.list (markCommands [.text "prepare", .text sampleCallback]).1))) := rfl
  rw [hmark, markCommands_sample, renderCloudConfig, hheader]
  rfl

/-- Python reads what the server has rendered. -/
theorem readBack_sample {body : String} :
    ReadBack (mergeYaml content) body (sampleConfig content (markCommand sampleCallback)) := by
  intro cfg commands hcfg hcommands k
  obtain rfl : sampleConfig content sampleCallback = cfg := Option.some.inj (Except.ok.inj hcfg)
  obtain rfl : [Yaml.text "prepare",
    .text sampleCallback] = commands := Yaml.list.inj (Option.some.inj hcommands)
  rw [markCommands_sample]
  rfl

/-- Whether user-data is a template is seen from the header. -/
theorem isTemplate_mergeSeed {header : String} (hheader : header ∈ sampleHeaders) :
    isTemplate (mergeSeed header content).userData = startsWith header jinjaTemplateHeader := by
  have hstart : startsWith (mergeSeed header content).userData header = true :=
    startsWith_trans startsWith_mergeSeed startsWith_append
  simp only [sampleHeaders, List.mem_cons, List.not_mem_nil, or_false] at hheader
  rcases hheader with rfl | rfl
  · rw [isTemplate, lstrip_eq_self hstart (show _ = '#' :: "cloud-config".toList by decide) (by decide),
      startsWith_eq_false hstart (by decide) (by decide)]
    decide
  · rw [isTemplate, lstrip_of_jinja (startsWith_trans hstart (by decide)),
      startsWith_trans hstart (by decide)]
    decide

end Gomi.CloudConfig
