import RiscvTables.Platform.Document
import RiscvTables.Proofs.Toml.Format

/-!
# Platform files and what they hold

A configuration that is written as a platform file is read back as it was
(`PlatformConfig.ofText_toText`).  The two halves meet in the document that the file holds.

* Between the configuration and its document nothing is lost: what is left out of the document is
  not there at all, and the defaults that are read in those places are what was left out
  (`ofDocument?_toDocument`).
* Between the document and the text stands a text format, of which only the laws of
  `RiscvTables.Proofs.Format` are known.  They apply because the document of a configuration is in
  sections (`isSectioned_toDocument`), and its integers are those of the configuration
  (`mentions_toDocument_iff`).
-/

set_option autoImplicit false

namespace RiscvTables

/-! ## Reading the parts -/

variable (surplus : Document.Surplus)

theorem TableIdentity.ofDocument?_toDocument (identity : TableIdentity) :
    TableIdentity.ofDocument? surplus identity.toDocument = some identity := by
  simp [TableIdentity.ofDocument?, toDocument, Document.fields?, Document.Fields.required?,
    Document.Fields.find?, Document.uint8?_natural, Document.uint32?_natural, Document.text?]

theorem TimerConfig.ofDocument?_toDocument (timer : TimerConfig) :
    TimerConfig.ofDocument? surplus timer.toDocument = some timer := by
  simp [TimerConfig.ofDocument?, toDocument, Document.fields?, Document.Fields.required?,
    Document.Fields.optional?, Document.Fields.find?, Document.uint64?_natural, Document.boolean?]

theorem CacheBlockConfig.ofDocument?_toDocument (sizes : CacheBlockConfig) :
    CacheBlockConfig.ofDocument? surplus sizes.toDocument = some sizes := by
  simp [CacheBlockConfig.ofDocument?, toDocument, Document.fields?, Document.Fields.optional?,
    Document.Fields.find?, Document.uint64?_natural]

namespace PlatformConfig

/-! ## Reading what may be left out -/

theorem elim_isa (isa : Option String) :
    (isa.map Document.text).elim (some none) (Document.nullable? Document.text?) = some isa := by
  cases isa <;> rfl

theorem elim_timer (timer : Option TimerConfig) :
    (timer.map TimerConfig.toDocument).elim (some none)
        (Document.nullable? (TimerConfig.ofDocument? surplus)) = some timer := by
  cases timer with
  | none => rfl
  | some timer =>
    exact congrArg (Option.map some) (TimerConfig.ofDocument?_toDocument surplus timer)

theorem listOf?_cacheBlocks (cacheBlocks : List CacheBlockConfig) :
    Document.listOf? (CacheBlockConfig.ofDocument? surplus)
        (.list (cacheBlocks.map CacheBlockConfig.toDocument)) = some cacheBlocks := by
  have hsizes := CacheBlockConfig.ofDocument?_toDocument surplus
  exact (Option.mapM_map_eq_some hsizes cacheBlocks).trans (congrArg some (List.map_id' _))

theorem elim_cacheBlocks (cacheBlocks : List CacheBlockConfig) :
    (if cacheBlocks = [] then none
      else some (Document.list (cacheBlocks.map CacheBlockConfig.toDocument))).elim (some [])
      (Document.listOf? (CacheBlockConfig.ofDocument? surplus)) = some cacheBlocks := by
  split_ifs with h
  · rw [h]; rfl
  · exact listOf?_cacheBlocks surplus cacheBlocks

/-- The fields of a configuration in order, each with its document if it is written. -/
def fields (config : PlatformConfig) : List (String × Option Document) :=
  [("name", some (.text config.name)),
   ("isa-string", config.isa.map .text),
   ("table", some config.table.toDocument),
   ("timer", config.timer.map TimerConfig.toDocument),
   ("cmo", if config.cacheBlocks = [] then none
      else some (.list (config.cacheBlocks.map CacheBlockConfig.toDocument)))]

theorem areKeys_fields (config : PlatformConfig) :
    Document.AreKeys (config.fields.map Prod.fst) :=
  (by decide +kernel : Document.AreKeys ["name", "isa-string", "table", "timer", "cmo"])

theorem toDocument_eq_record_present (config : PlatformConfig) :
    config.toDocument = .record (Document.present config.fields) := by
  obtain ⟨name, isa, table, timer, cacheBlocks⟩ := config
  cases isa <;> cases timer <;> cases cacheBlocks <;>
    simp [toDocument, leadingFields, sectionFields, fields, Document.present]

/-- **A configuration is read from its document as it was.** -/
theorem ofDocument?_toDocument (config : PlatformConfig) :
    ofDocument? surplus config.toDocument = some config := by
  have hnames := config.areKeys_fields.nodup
  have hname := Document.Fields.required?_present hnames 0 Document.text? (.head _)
  have hisa := Document.Fields.optional?_present hnames 1 (Document.nullable? Document.text?)
    (.tail _ (.head _)) none
  have htable := Document.Fields.optional?_present hnames 2 (TableIdentity.ofDocument? surplus)
    (.tail _ (.tail _ (.head _))) {}
  have htimer := Document.Fields.optional?_present hnames 3
    (Document.nullable? (TimerConfig.ofDocument? surplus))
    (.tail _ (.tail _ (.tail _ (.head _)))) none
  have hcacheBlocks := Document.Fields.optional?_present hnames 4
    (Document.listOf? (CacheBlockConfig.ofDocument? surplus))
    (.tail _ (.tail _ (.tail _ (.tail _ (.head _))))) []
  rw [elim_isa] at hisa
  rw [Option.elim_some, TableIdentity.ofDocument?_toDocument] at htable
  rw [elim_timer] at htimer
  rw [elim_cacheBlocks] at hcacheBlocks
  rw [toDocument_eq_record_present, ofDocument?]
  simp only [Document.fields?, hname, hisa, htable, htimer, hcacheBlocks, bind, Option.bind, pure,
    Document.text?]

/-! ## The sections of a document -/

end PlatformConfig

theorem TableIdentity.isTable_toDocument (identity : TableIdentity) :
    identity.toDocument.IsTable :=
  .record
    (by decide +kernel : Document.AreKeys ["oem-id", "oem-table-id", "oem-revision", "creator-id",
      "creator-revision", "revision"])
    (by simp)

theorem TimerConfig.isTable_toDocument (timer : TimerConfig) : timer.toDocument.IsTable :=
  .record (by decide +kernel : Document.AreKeys ["timebase-frequency", "cannot-wake-cpu"])
    (by simp)

theorem CacheBlockConfig.isTable_toDocument (sizes : CacheBlockConfig) :
    sizes.toDocument.IsTable :=
  .record
    (by decide +kernel :
      Document.AreKeys ["cbom-block-size", "cbop-block-size", "cboz-block-size"])
    (by simp)

namespace PlatformConfig

theorem isSingle_leadingFields (config : PlatformConfig) :
    ∀ field ∈ config.leadingFields, Document.IsSingle field.2 := by
  simp [leadingFields]

theorem isSection_sectionFields (config : PlatformConfig) :
    ∀ field ∈ config.sectionFields, Document.IsSection field.2 := by
  intro field hfield
  rcases List.mem_append.1 hfield with hfield | hfield
  · rcases List.mem_cons.1 hfield with rfl | hfield
    · exact .table config.table.isTable_toDocument
    · obtain ⟨timer, -, rfl⟩ := List.mem_map.1 hfield
      exact .table timer.isTable_toDocument
  · split_ifs at hfield with hempty
    · cases hfield
    · rw [List.mem_singleton.1 hfield]
      refine .tables (by simpa using hempty) fun item hitem => ?_
      obtain ⟨sizes, -, rfl⟩ := List.mem_map.1 hitem
      exact sizes.isTable_toDocument

theorem isSectioned_toDocument (config : PlatformConfig) : config.toDocument.IsSectioned := by
  have hfields : config.leadingFields ++ config.sectionFields = Document.present config.fields :=
    Document.record.inj config.toDocument_eq_record_present
  have hkeys := config.areKeys_fields.sublist (Document.sublist_present _)
  rw [← hfields] at hkeys
  exact .record hkeys config.isSingle_leadingFields config.isSection_sectionFields

/-! ## The integers of a document -/

/-- The integers of a configuration. -/
def integers (config : PlatformConfig) : List Nat :=
  [config.table.oemRevision.toNat, config.table.creatorRevision.toNat,
      config.table.revision.toNat] ++
    config.timer.toList.map (fun timer => timer.frequency.toNat) ++
    config.cacheBlocks.flatMap fun sizes =>
      [sizes.cbom.toNat, sizes.cbop.toNat, sizes.cboz.toNat]

/-- A document mentions the integers of its configuration, and no others. -/
theorem mentions_toDocument_iff (config : PlatformConfig) (n : Int) :
    config.toDocument.Mentions n ↔ ∃ k ∈ config.integers, (k : Int) = n := by
  obtain ⟨name, isa, table, timer, cacheBlocks⟩ := config
  cases isa <;> cases timer <;> cases cacheBlocks <;>
    simp [toDocument, leadingFields, sectionFields, integers, TableIdentity.toDocument,
      TimerConfig.toDocument, CacheBlockConfig.toDocument]
  all_goals grind

/-! ## The file of a configuration -/

section File

variable {format : Document.Format} {config : PlatformConfig} {text : String}

theorem toText_eq_ok_iff :
    config.toText format = .ok text ↔ format.write? config.toDocument = some text := by
  rw [toText]
  cases format.write? config.toDocument <;> simp

/-- A configuration is read from each text that holds its document. -/
theorem ofText_eq_ok (h : format.read? text = some config.toDocument) :
    ofText format text = .ok config := by
  rw [ofText, h, Option.bind_some, ofDocument?_toDocument]

end File

/-- **Platform files round-trip**, whatever the text format, as long as it reads back what it has
written, writes what fits 64 bits with a sign, and refuses larger integers.  A configuration whose
integers all fit is written as a file that holds its document and is read as the configuration
again; any other is not written at all. -/
theorem ofText_toText (format : Document.Format) (hreads : format.ReadsBack)
    (hwrites : format.WritesSmall) (hrefuses : format.RefusesLarge) (config : PlatformConfig) :
    ((∀ n ∈ config.integers, n ≤ 0x7fffffffffffffff) →
      ∃ text, config.toText format = .ok text ∧ format.read? text = some config.toDocument ∧
        ofText format text = .ok config) ∧
    ((∃ n ∈ config.integers, 0x7fffffffffffffff < n) →
      config.toText format = .error .unwritable) := by
  have hsectioned := config.isSectioned_toDocument
  constructor
  · intro hfit
    have hsmall : ∀ n : Int, config.toDocument.Mentions n → n ≤ 0x7fffffffffffffff := by
      intro n hn
      obtain ⟨k, hk, rfl⟩ := (config.mentions_toDocument_iff n).1 hn
      exact Int.ofNat_le.2 (hfit k hk)
    obtain ⟨text, htext⟩ := hwrites _ hsectioned hsmall
    have hdocument := hreads _ text hsectioned htext
    exact ⟨text, toText_eq_ok_iff.2 htext, hdocument, ofText_eq_ok hdocument⟩
  · rintro ⟨n, hn, hlarge⟩
    have hmentions := (config.mentions_toDocument_iff n).2 ⟨n, hn, rfl⟩
    rw [toText, hrefuses _ _ hsectioned hmentions (Int.ofNat_lt.2 hlarge)]

/-- A platform with every form of string and every sort of section in its file. -/
def quotedPlatform : PlatformConfig where
  name := "the \"first\"\nof 'three' boards\t\\"
  isa := some "rv64gc_\x7f"
  table := { oemId := "it's", creatorId := "\"\"\"'''", oemRevision := 0xffffffff }
  timer := some { frequency := 0x7fffffffffffffff, cannotWakeCpu := true }
  cacheBlocks := [{}, { cboz := 0x7fffffffffffffff }]

/-- The platform as a TOML file. -/
def quotedFile : String :=
  let lines := [
    "name = '''",
    "the \"first\"",
    "of 'three' boards\t\\'''",
    "isa-string = \"rv64gc_\\u007F\"",
    "",
    "[table]",
    "oem-id = \"it's\"",
    "oem-table-id = \"HARTCAP\"",
    "oem-revision = 4294967295",
    "creator-id = \"\\\"\\\"\\\"'''\"",
    "creator-revision = 1",
    "revision = 1",
    "",
    "[timer]",
    "timebase-frequency = 9223372036854775807",
    "cannot-wake-cpu = true",
    "",
    "[[cmo]]",
    "cbom-block-size = 0",
    "cbop-block-size = 0",
    "cboz-block-size = 0",
    "",
    "[[cmo]]",
    "cbom-block-size = 0",
    "cbop-block-size = 0",
    "cboz-block-size = 9223372036854775807"]
  String.ofList (lines.flatMap fun line => line.toList ++ ['\n'])

set_option maxRecDepth 4000 in
theorem ofText_toText_quotedPlatform :
    (Toml.format.ReadsBack ∧ Toml.format.WritesSmall ∧ Toml.format.RefusesLarge) ∧
      quotedPlatform.toText Toml.format = .ok quotedFile ∧
      Toml.format.read? quotedFile = some quotedPlatform.toDocument ∧
      ofText Toml.format quotedFile = .ok quotedPlatform ∧
      { quotedPlatform with cacheBlocks := [{ cbop := 0x8000000000000000 }] }.toText Toml.format =
        .error .unwritable := by
  have hreads := Toml.readsBack_format
  have hwrites := Toml.writesSmall_format
  have hrefuses := Toml.refusesLarge_format
  have hfile : quotedPlatform.toText Toml.format = .ok quotedFile := rfl
  obtain ⟨text, htext, hdocument, hconfig⟩ :=
    (ofText_toText Toml.format hreads hwrites hrefuses quotedPlatform).1 (by decide)
  obtain rfl : quotedFile = text := Except.ok.inj (hfile.symm.trans htext)
  refine ⟨⟨hreads, hwrites, hrefuses⟩, hfile, hdocument, hconfig, ?_⟩
  exact (ofText_toText Toml.format hreads hwrites hrefuses
    { quotedPlatform with cacheBlocks := [{ cbop := 0x8000000000000000 }] }).2
    ⟨0x8000000000000000, by decide, by decide⟩

end PlatformConfig
end RiscvTables
