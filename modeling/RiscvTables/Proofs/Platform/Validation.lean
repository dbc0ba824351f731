import RiscvTables.Proofs.Platform.Config
import RiscvTables.Proofs.Rhct.Retention

/-!
# The check of a platform is adequate

A platform is checked once and used twice: its values become records, and its identity goes into
the header of the table.  Neither use looks at the check.  Records are refused by a loop of their
own, and an id that is too long for its field would be cut off without a word.

The check and the loop refuse the same cache blocks: both `cacheBlockIssues_eq_nil_iff` and
`exists_records_iff` ask for a record of the sizes.  What is left is to tell the errors about block
sizes from the others, by their wording (`exists_issue_isBlockSize_iff`).  And an id that passes the
check fits its field, so the field holds all of it (`TableIdentity.StampedIn`).
-/

set_option autoImplicit false

namespace RiscvTables

/-- The issue is an error about one of the block sizes of a cache block. -/
def Issue.IsBlockSize (issue : Issue) : Prop :=
  ∃ (position : Nat) (field : String) (size : UInt64),
    field ∈ ["cbom-block-size", "cbop-block-size", "cboz-block-size"] ∧
      issue = ⟨.error, s!"cmo[{position}] {field} {size.toNat} is not a power of two"⟩

/-- A field holds all of a text, and behind it nothing but blanks. -/
def HoldsText (width : Nat) (text : String) (field : Bytes) : Prop :=
  ∃ blanks, field = Utf8.encode text ++ List.replicate blanks 0x20 ∧ field.length = width

/-- The header of a table holds the ids of an identity. -/
structure TableIdentity.StampedIn (identity : TableIdentity) (table : Bytes) : Prop where
  oemId : HoldsText 6 identity.oemId (Rhct.View.field table 10 6)
  oemTableId : HoldsText 8 identity.oemTableId (Rhct.View.field table 16 8)
  creatorId : HoldsText 4 identity.creatorId (Rhct.View.field table 28 4)

namespace PlatformConfig

variable {config : PlatformConfig}

/-! ## Block sizes -/

/-- What keeps a configuration from being used, but for the sizes of its cache blocks. -/
def otherErrors (config : PlatformConfig) : List String :=
  idIssues "oem-id" config.table.oemId 6 ++
    idIssues "oem-table-id" config.table.oemTableId 8 ++
    idIssues "creator-id" config.table.creatorId 4 ++
    (if config.table.revision = 0 then ["table revision must be at least 1"] else []) ++
    config.isa.elim [] isaIssues ++
    config.timer.elim [] (fun timer =>
      if timer.frequency = 0 then ["timer timebase-frequency is 0"] else [])

theorem mem_errors_iff {message : String} :
    message ∈ config.errors ↔ message ∈ config.otherErrors ∨
      ∃ position sizes, config.cacheBlocks[position]? = some sizes ∧
        message ∈ cacheBlockIssues sizes position := by
  have herrors : config.errors = config.otherErrors ++
      config.cacheBlocks.zipIdx.flatMap fun p => cacheBlockIssues p.1 p.2 := rfl
  rw [herrors, List.mem_append, List.mem_flatMap]
  refine or_congr Iff.rfl ⟨?_, ?_⟩
  · rintro ⟨⟨sizes, position⟩, hmem, hmessage⟩
    exact ⟨position, sizes, List.mk_mem_zipIdx_iff_getElem?.1 hmem, hmessage⟩
  · rintro ⟨position, sizes, hsizes, hmessage⟩
    exact ⟨(sizes, position), List.mk_mem_zipIdx_iff_getElem?.2 hsizes, hmessage⟩

theorem eq_of_mem_sizeIssues {position : Nat} {field message : String} {size : UInt64}
    (h : message ∈ sizeIssues position field size) :
    message = s!"cmo[{position}] {field} {size.toNat} is not a power of two" := by
  rw [sizeIssues] at h
  split at h
  next => exact List.mem_singleton.1 h
  next => cases h

theorem isBlockSize_of_mem_cacheBlockIssues {sizes : CacheBlockConfig} {position : Nat}
    {message : String} (h : message ∈ cacheBlockIssues sizes position) :
    Issue.IsBlockSize ⟨.error, message⟩ := by
  simp only [cacheBlockIssues, List.mem_append] at h
  rcases h with (h | h) | h <;>
    exact ⟨position, _, _, by decide, congrArg _ (eq_of_mem_sizeIssues h)⟩

theorem head?_toList_append {front : String} {c : Char} (h : front.toList.head? = some c)
    (back : String) : (front ++ back).toList.head? = some c := by
  rw [String.toList_append, List.head?_append, h, Option.some_or]

/-- An error about a block size begins with another letter than the rest. -/
theorem head?_of_isBlockSize {message : String} (h : Issue.IsBlockSize ⟨.error, message⟩) :
    message.toList.head? = some 'c' := by
  obtain ⟨position, field, size, -, h⟩ := h
  rw [(Issue.mk.inj h).2]
  simp only [toString]
  repeat apply head?_toList_append
  rfl

theorem head?_of_mem_idIssues {field value message : String} {width : Nat}
    (h : message ∈ idIssues field value width) : message.toList.head? = some 't' := by
  rw [idIssues] at h
  split at h
  next =>
    rw [List.mem_singleton.1 h]
    repeat apply head?_toList_append
    rfl
  next =>
    split at h
    next =>
      rw [List.mem_singleton.1 h]
      repeat apply head?_toList_append
      rfl
    next => cases h

theorem head?_of_mem_isaIssues {isa message : String} (h : message ∈ isaIssues isa) :
    message.toList.head? = some 'i' := by
  rw [isaIssues] at h
  split at h
  next =>
    rw [List.mem_singleton.1 h]
    rfl
  next =>
    split at h
    next =>
      rw [List.mem_singleton.1 h]
      repeat apply head?_toList_append
      rfl
    next => cases h

theorem not_isBlockSize_of_mem_otherErrors {message : String} (h : message ∈ config.otherErrors) :
    ¬ Issue.IsBlockSize ⟨.error, message⟩ := by
  intro hsize
  have hhead := head?_of_isBlockSize hsize
  simp only [otherErrors, List.mem_append] at h
  rcases h with ((((h | h) | h) | h) | h) | h
  · exact absurd (hhead.symm.trans (head?_of_mem_idIssues h)) (by decide)
  · exact absurd (hhead.symm.trans (head?_of_mem_idIssues h)) (by decide)
  · exact absurd (hhead.symm.trans (head?_of_mem_idIssues h)) (by decide)
  · split at h
    next =>
      rw [List.mem_singleton.1 h] at hhead
      exact absurd hhead (by decide)
    next => cases h
  · cases hisa : config.isa with
    | none =>
      rw [hisa] at h
      cases h
    | some isa =>
      rw [hisa] at h
      exact absurd (hhead.symm.trans (head?_of_mem_isaIssues h)) (by decide)
  · cases htimer : config.timer with
    | none =>
      rw [htimer] at h
      cases h
    | some timer =>
      rw [htimer, Option.elim_some] at h
      split at h
      next =>
        rw [List.mem_singleton.1 h] at hhead
        exact absurd hhead (by decide)
      next => cases h

theorem validate_eq_error_iff {issues : List Issue} :
    config.validate = .error issues ↔ config.errors ≠ [] ∧
      config.errors.map (⟨.error, ·⟩) ++ config.warnings.map (⟨.warning, ·⟩) = issues := by
  rw [validate]
  split
  next hnil => simp [hnil]
  next hne => rw [Except.error.injEq, and_iff_right hne]

/-- **An error about a block size is reported just if some cache blocks have no record.** -/
theorem exists_issue_isBlockSize_iff :
    (∃ issues, config.validate = .error issues ∧ ∃ issue ∈ issues, issue.IsBlockSize) ↔
      ¬ ∀ sizes ∈ config.cacheBlocks, ∃ record, IsRecordOf sizes record := by
  constructor
  · rintro ⟨issues, hissues, issue, hissue, hsize⟩ hall
    obtain ⟨-, rfl⟩ := validate_eq_error_iff.1 hissues
    rcases List.mem_append.1 hissue with hmem | hmem
    · obtain ⟨message, hmessage, rfl⟩ := List.mem_map.1 hmem
      rcases mem_errors_iff.1 hmessage with hother | ⟨position, sizes, hsizes, hbad⟩
      · exact not_isBlockSize_of_mem_otherErrors hother hsize
      · have hnil := (cacheBlockIssues_eq_nil_iff position).2
          (hall sizes (List.mem_of_getElem? hsizes))
        rw [hnil] at hbad
        cases hbad
    · obtain ⟨message, -, rfl⟩ := List.mem_map.1 hmem
      obtain ⟨_, _, _, -, hsame⟩ := hsize
      cases (Issue.mk.inj hsame).1
  · intro hnot
    simp only [not_forall] at hnot
    obtain ⟨sizes, hmem, hnone⟩ := hnot
    obtain ⟨position, hposition⟩ := List.mem_iff_getElem?.1 hmem
    have hne := mt (cacheBlockIssues_eq_nil_iff position).1 hnone
    obtain ⟨message, hmessage⟩ := List.exists_mem_of_ne_nil _ hne
    have herror := mem_errors_iff.2 (.inr ⟨position, sizes, hposition, hmessage⟩)
    refine ⟨_, validate_eq_error_iff.2 ⟨List.ne_nil_of_mem herror, rfl⟩, _,
      List.mem_append_left _ (List.mem_map_of_mem herror), ?_⟩
    exact isBlockSize_of_mem_cacheBlockIssues hmessage

end PlatformConfig

/-! ## Ids -/

/-- The ids of an identity fit their fields. -/
structure TableIdentity.Fits (identity : TableIdentity) : Prop where
  oemId : (Utf8.encode identity.oemId).length ≤ 6
  oemTableId : (Utf8.encode identity.oemTableId).length ≤ 8
  creatorId : (Utf8.encode identity.creatorId).length ≤ 4

theorem length_encode_of_idIssues_eq_nil {field value : String} {width : Nat}
    (h : PlatformConfig.idIssues field value width = []) : (Utf8.encode value).length ≤ width := by
  rw [PlatformConfig.idIssues] at h
  split at h
  next => cases h
  next =>
    split at h
    next => cases h
    next hfits => exact Nat.not_lt.1 hfits

theorem PlatformConfig.fits_of_validate {config : PlatformConfig} (h : config.validate = .ok ()) :
    config.table.Fits := by
  have herrors := validate_eq_ok_iff.1 h
  simp only [errors, List.append_eq_nil_iff] at herrors
  obtain ⟨⟨⟨⟨⟨⟨hoemId, hoemTableId⟩, hcreatorId⟩, -⟩, -⟩, -⟩, -⟩ := herrors
  exact ⟨length_encode_of_idIssues_eq_nil hoemId, length_encode_of_idIssues_eq_nil hoemTableId,
    length_encode_of_idIssues_eq_nil hcreatorId⟩

theorem holdsText_spacePadded {width : Nat} {text : String}
    (h : (Utf8.encode text).length ≤ width) :
    HoldsText width text (spacePadded width text).toList := by
  refine ⟨width - (Utf8.encode text).length, ?_, Vector.length_toList⟩
  simp [spacePadded, List.take_of_length_le h]

/-- A header holds the ids that fit, whatever follows it. -/
theorem TableIdentity.Fits.stampedIn {identity : TableIdentity} (h : identity.Fits)
    (signature : Vector UInt8 4) (length : UInt32) (more : Bytes) :
    identity.StampedIn (Rhct.headerBytes signature length identity.toInfo ++ more) := by
  have hpieces : Rhct.headerBytes signature length identity.toInfo ++ more =
      [signature.toList ++ LittleEndian.encode 4 length.toNat ++ [identity.revision, 0],
        (spacePadded 6 identity.oemId).toList, (spacePadded 8 identity.oemTableId).toList,
        LittleEndian.encode 4 identity.oemRevision.toNat, (spacePadded 4 identity.creatorId).toList,
        LittleEndian.encode 4 identity.creatorRevision.toNat ++ more].flatten := by
    simp [Rhct.headerBytes, TableIdentity.toInfo]
  rw [hpieces]
  refine ⟨?_, ?_, ?_⟩
  · rw [Rhct.View.field_flatten 1 rfl (by simp) (by simp)]
    exact holdsText_spacePadded h.oemId
  · rw [Rhct.View.field_flatten 2 rfl (by simp) (by simp)]
    exact holdsText_spacePadded h.oemTableId
  · rw [Rhct.View.field_flatten 4 rfl (by simp) (by simp)]
    exact holdsText_spacePadded h.creatorId

/-- The checksum stands in front of the ids. -/
theorem TableIdentity.StampedIn.finalizeChecksum {identity : TableIdentity} {table : Bytes}
    (h : identity.StampedIn table) : identity.StampedIn (Rhct.finalizeChecksum table) := by
  refine ⟨?_, ?_, ?_⟩
  · rw [Rhct.View.field_finalizeChecksum _ _ (by decide)]
    exact h.oemId
  · rw [Rhct.View.field_finalizeChecksum _ _ (by decide)]
    exact h.oemTableId
  · rw [Rhct.View.field_finalizeChecksum _ _ (by decide)]
    exact h.creatorId

/-! ## Adequacy -/

/-- **The check refuses what cannot be used.**  A configuration has no records just if the check
reports a block size of it.  One that passes has its own values as records, block sizes as
logarithms, and all of its ids in the header of its tables. -/
theorem PlatformConfig.validate_adequate (config : PlatformConfig) :
    ((∃ error, config.records = .error error) ↔
      ∃ issues, config.validate = .error issues ∧ ∃ issue ∈ issues, issue.IsBlockSize) ∧
    (config.validate = .ok () →
      (∃ records, config.records = .ok records ∧
        records.timer = config.timer.map (fun timer => ⟨timer.frequency, timer.cannotWakeCpu⟩) ∧
        records.isa = config.isa.map (fun isa => ⟨isa⟩) ∧
        List.Forall₂ IsRecordOf config.cacheBlocks records.cacheBlocks) ∧
      (∀ signature length, ∃ header,
        Rhct.stampIdentity signature length config.table.toInfo = .ok header ∧
          config.table.StampedIn header.toList) ∧
      ∀ store table index,
        Rhct.build Rhct.stampIdentity config.table.toInfo store = .ok (table, index) →
          config.table.StampedIn table) := by
  refine ⟨?_, fun hvalid => ⟨?_, fun signature length => ⟨_, rfl, ?_⟩, ?_⟩⟩
  · rw [Except.exists_eq_error_iff, exists_records_iff, exists_issue_isBlockSize_iff]
  · obtain ⟨records, hrecords⟩ := exists_records hvalid
    exact ⟨records, hrecords, records_eq_ok_iff.1 hrecords⟩
  · simpa using (fits_of_validate hvalid).stampedIn signature length []
  · intro store table index hbuild
    obtain ⟨-, inputs, -, -, -, rfl⟩ := Rhct.build_eq_ok_iff.1 hbuild
    rw [Rhct.Inputs.draft, List.append_assoc]
    exact ((fits_of_validate hvalid).stampedIn _ _ _).finalizeChecksum

/-- A platform with an id that fills its field, a short one and none, and with the largest block
size there is. -/
def fullRangePlatform : PlatformConfig where
  name := "full range"
  isa := some "rv64gc"
  table := { oemId := "LEANHW", oemTableId := "BOARD", creatorId := "" }
  cacheBlocks := [{ cbom := 64, cboz := 4096 }, { cbop := 0x8000000000000000 }]

/-- The platform has its records and is stamped whole.  With one more block size, the check and the
records refuse it both. -/
theorem validate_adequate_fullRangePlatform :
    fullRangePlatform.validate = .ok () ∧
      (∃ records, fullRangePlatform.records = .ok records ∧
        records.cacheBlocks = [⟨6, 0, 12⟩, ⟨0, 63, 0⟩] ∧
        List.Forall₂ PlatformConfig.IsRecordOf fullRangePlatform.cacheBlocks records.cacheBlocks) ∧
      (∃ table index, Rhct.build Rhct.stampIdentity fullRangePlatform.table.toInfo
          Rhct.sampleStore = .ok (table, index) ∧ fullRangePlatform.table.StampedIn table) ∧
      ∃ error, { fullRangePlatform with cacheBlocks := [{ cbom := 48 }] }.records =
        .error error := by
  have hvalid : fullRangePlatform.validate = .ok () := by decide +kernel
  obtain ⟨⟨records, hrecords, -, -, hcacheBlocks⟩, -, hbuilt⟩ :=
    fullRangePlatform.validate_adequate.2 hvalid
  have hlogs : fullRangePlatform.records.toOption.map (·.cacheBlocks) =
      some [⟨6, 0, 12⟩, ⟨0, 63, 0⟩] := by decide +kernel
  have hok : (Rhct.build Rhct.stampIdentity fullRangePlatform.table.toInfo
      Rhct.sampleStore).toOption.any fun _ => true := by decide +kernel
  obtain ⟨⟨table, index⟩, hbuild, -⟩ := Except.exists_ok_of_any hok
  refine ⟨hvalid, ⟨records, hrecords, ?_, hcacheBlocks⟩,
    ⟨table, index, hbuild, hbuilt _ table index hbuild⟩, ?_⟩
  · rw [hrecords] at hlogs
    exact Option.some.inj hlogs
  · refine (PlatformConfig.validate_adequate _).1.2 ⟨_, rfl, _, List.mem_cons_self, ?_⟩
    exact ⟨0, "cbom-block-size", 48, by decide, by decide +kernel⟩

end RiscvTables
