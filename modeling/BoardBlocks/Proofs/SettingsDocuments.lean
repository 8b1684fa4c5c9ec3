/-
# Settings documents read back

Settings that are written as a document and read again are the same settings, checked: they are
refused for exactly the fault that they have, and come back as they were if they have none.

Members may be left out of the document, fields or whole sections.  What is left out is read as its
default, so a document with gaps is read as the settings in which those fields are reset:

| left out | read as |
| --- | --- |
| a field of a section | the default of the field |
| a section | the defaults of all its fields |
| everything | the default settings |
-/

import BoardBlocks.Proofs.JsonRecords
import BoardBlocks.Settings.Document

namespace BoardBlocks

open Json (fieldsWithout)

/-! ### Fields that hold their defaults -/

/-- The settings of the session with the fields that are gone reset. -/
def SessionSettings.reset (gone : String → Bool) (s : SessionSettings) : SessionSettings :=
  let base : SessionSettings := {}
  { brokerScheme := if gone "broker_scheme" then base.brokerScheme else s.brokerScheme
    brokerPort := if gone "broker_port" then base.brokerPort else s.brokerPort
    maxReconnectAttempts :=
      if gone "max_reconnect_attempts" then base.maxReconnectAttempts
      else s.maxReconnectAttempts }

/-- The settings of generated code with the fields that are gone reset. -/
def CodeSettings.reset (gone : String → Bool) (s : CodeSettings) : CodeSettings :=
  let base : CodeSettings := {}
  { serialBaud := if gone "serial_baud" then base.serialBaud else s.serialBaud
    uartId := if gone "uart_id" then base.uartId else s.uartId
    initSettleMs := if gone "init_settle_ms" then base.initSettleMs else s.initSettleMs }

/-- The settings of the palette with the fields that are gone reset. -/
def PaletteSettings.reset (gone : String → Bool) (s : PaletteSettings) : PaletteSettings :=
  let base : PaletteSettings := {}
  { defaultServer := if gone "default_server" then base.defaultServer else s.defaultServer
    defaultClientId :=
      if gone "default_client_id" then base.defaultClientId else s.defaultClientId
    cloudServer := if gone "cloud_server" then base.cloudServer else s.cloudServer }

/-- Settings with the fields at the paths that are gone reset; a path may name a whole section. -/
def Settings.reset (gone : List String → Bool) (s : Settings) : Settings where
  session := if gone ["session"] then {}
    else s.session.reset fun field => gone ["session", field]
  code := if gone ["codegen"] then {} else s.code.reset fun field => gone ["codegen", field]
  palette := if gone ["extension"] then {}
    else s.palette.reset fun field => gone ["extension", field]

/-- Nothing is reset if nothing is gone. -/
theorem Settings.reset_none (s : Settings) : s.reset (fun _ => false) = s := rfl

/-! ### What is left of a record -/

section Records

variable (gone : List String → Bool) (path : List String) {fs : List (String × Json)}

/-- A field of a written record is read from what is left of the record: as it was written, or as
its default. -/
theorem fieldOr_fieldsWithout {α : Type} {name : String} {read : Json → Option α}
    {default value : α} {j : Json} (hname : Json.encode name = name)
    (hfield : Json.field? name fs = some j)
    (hread : read (j.without gone (path ++ [name])) = some value) :
    Json.fieldOr name read default (fieldsWithout gone path fs) =
      some (if gone (path ++ [name]) then default else value) := by
  have hstated := Json.field?_fieldsWithout gone path name fs
  rw [hname, hfield] at hstated
  by_cases hgone : gone (path ++ [name]) = true
  · rw [if_pos hgone] at hstated ⊢
    exact Json.fieldOr_of_none hstated
  · rw [if_neg hgone] at hstated ⊢
    exact (Json.fieldOr_of_some hstated).trans hread

/-- What is left of a record is a record. -/
theorem record?_without (hdistinct : (fs.map Prod.fst).Nodup) :
    ((Json.ofFields fs).without gone path).record? (fs.map Prod.fst) =
      some (fieldsWithout gone path fs) := by
  have hsub := Json.map_fst_fieldsWithout gone path fs
  rw [Json.without_ofFields]
  exact Json.record?_ofFields (fun f hf => hsub.subset (List.mem_map_of_mem hf))
    (hdistinct.sublist hsub)

/-- **What is left of a record of three fields** states each of them as it was written or, if it is
gone, leaves it to its default.  Settings have three sections, and a section has three fields. -/
theorem threeFields_without {α β γ : Type} {value₁ : α} {value₂ : β} {value₃ : γ}
    (n₁ : String) (j₁ : Json) (read₁ : Json → Option α) (default₁ : α)
    (n₂ : String) (j₂ : Json) (read₂ : Json → Option β) (default₂ : β)
    (n₃ : String) (j₃ : Json) (read₃ : Json → Option γ) (default₃ : γ)
    (hdistinct : [n₁, n₂, n₃].Nodup) (hname : ∀ n ∈ [n₁, n₂, n₃], Json.encode n = n)
    (h₁ : read₁ (j₁.without gone (path ++ [n₁])) = some value₁)
    (h₂ : read₂ (j₂.without gone (path ++ [n₂])) = some value₂)
    (h₃ : read₃ (j₃.without gone (path ++ [n₃])) = some value₃) :
    ∃ stated,
      ((Json.ofFields [(n₁, j₁), (n₂, j₂), (n₃, j₃)]).without gone path).record? [n₁, n₂, n₃] =
        some stated ∧
      Json.fieldOr n₁ read₁ default₁ stated =
        some (if gone (path ++ [n₁]) then default₁ else value₁) ∧
      Json.fieldOr n₂ read₂ default₂ stated =
        some (if gone (path ++ [n₂]) then default₂ else value₂) ∧
      Json.fieldOr n₃ read₃ default₃ stated =
        some (if gone (path ++ [n₃]) then default₃ else value₃) := by
  have hrecord : ((Json.ofFields [(n₁, j₁), (n₂, j₂), (n₃, j₃)]).without gone path).record?
      [n₁, n₂, n₃] = some (fieldsWithout gone path [(n₁, j₁), (n₂, j₂), (n₃, j₃)]) :=
    record?_without gone path hdistinct
  simp only [List.nodup_cons, List.mem_cons, List.not_mem_nil, or_false, not_or] at hdistinct
  obtain ⟨⟨h₁₂, h₁₃⟩, h₂₃, -⟩ := hdistinct
  simp only [List.forall_mem_cons] at hname
  obtain ⟨hname₁, hname₂, hname₃, -⟩ := hname
  have hne : ∀ {a b : String}, a ≠ b → (b == a) = false := fun h => beq_eq_false_iff_ne.2 h.symm
  refine ⟨_, hrecord, fieldOr_fieldsWithout gone path hname₁ ?_ h₁,
    fieldOr_fieldsWithout gone path hname₂ ?_ h₂, fieldOr_fieldsWithout gone path hname₃ ?_ h₃⟩
  · simp [Json.field?]
  · simp [Json.field?, List.lookup_cons, hne h₁₂]
  · simp [Json.field?, List.lookup_cons, hne h₁₃, hne h₂₃]

end Records

/-! ### Numbers of a fixed width -/

theorem word32?_ofNat (n : UInt32) : word32? (Json.ofNat n.toNat) = some n := by
  rw [word32?, Json.natBelow?_ofNat n.toNat_lt]
  exact congrArg some n.ofNat_toNat

theorem word16?_ofNat (n : UInt16) :
    UInt16.ofNat <$> (Json.ofNat n.toNat).natBelow? UInt16.size = some n := by
  rw [Json.natBelow?_ofNat n.toNat_lt]
  exact congrArg some n.ofNat_toNat

theorem word8?_ofNat (n : UInt8) :
    UInt8.ofNat <$> (Json.ofNat n.toNat).natBelow? UInt8.size = some n := by
  rw [Json.natBelow?_ofNat n.toNat_lt]
  exact congrArg some n.ofNat_toNat

/-! ### Sections and settings read back -/

section Sections

variable (gone : List String → Bool) (path : List String)

/-- The session's settings read back with defaults for what was removed. -/
theorem SessionSettings.ofJson?_without (s : SessionSettings) :
    ofJson? (s.toJson.without gone path) = some (s.reset fun field => gone (path ++ [field])) := by
  let base : SessionSettings := {}
  obtain ⟨stated, hstated, hscheme, hport, hattempts⟩ := threeFields_without gone path
    "broker_scheme" (Json.ofString s.brokerScheme) Json.text? base.brokerScheme
    "broker_port" (Json.ofNat s.brokerPort.toNat)
    (fun j => UInt16.ofNat <$> j.natBelow? UInt16.size) base.brokerPort
    "max_reconnect_attempts" (Json.ofNat s.maxReconnectAttempts.toNat) word32?
    base.maxReconnectAttempts (by decide) (by decide) (Json.text?_ofString s.brokerScheme)
    (word16?_ofNat s.brokerPort) (word32?_ofNat s.maxReconnectAttempts)
  rw [ofJson?, toJson, hstated]
  simp only [base] at hscheme hport hattempts
  simp only [hscheme, hport, hattempts, Option.bind_eq_bind, Option.bind_some]
  rfl

/-- The settings of code read back with defaults for what was removed. -/
theorem CodeSettings.ofJson?_without (s : CodeSettings) :
    ofJson? (s.toJson.without gone path) = some (s.reset fun field => gone (path ++ [field])) := by
  let base : CodeSettings := {}
  obtain ⟨stated, hstated, hbaud, huart, hsettle⟩ := threeFields_without gone path
    "serial_baud" (Json.ofNat s.serialBaud.toNat) word32? base.serialBaud
    "uart_id" (Json.ofNat s.uartId.toNat)
    (fun j => UInt8.ofNat <$> j.natBelow? UInt8.size) base.uartId
    "init_settle_ms" (Json.ofNat s.initSettleMs.toNat) word32? base.initSettleMs
    (by decide) (by decide) (word32?_ofNat s.serialBaud) (word8?_ofNat s.uartId)
    (word32?_ofNat s.initSettleMs)
  rw [ofJson?, toJson, hstated]
  simp only [base] at hbaud huart hsettle
  simp only [hbaud, huart, hsettle, Option.bind_eq_bind, Option.bind_some]
  rfl

/-- The settings of the palette read back with defaults for what was removed. -/
theorem PaletteSettings.ofJson?_without (s : PaletteSettings) :
    ofJson? (s.toJson.without gone path) = some (s.reset fun field => gone (path ++ [field])) := by
  let base : PaletteSettings := {}
  obtain ⟨stated, hstated, hserver, hclient, hcloud⟩ := threeFields_without gone path
    "default_server" (Json.ofString s.defaultServer) Json.text? base.defaultServer
    "default_client_id" (Json.ofString s.defaultClientId) Json.text? base.defaultClientId
    "cloud_server" (Json.ofString s.cloudServer) Json.text? base.cloudServer
    (by decide) (by decide) (Json.text?_ofString s.defaultServer)
    (Json.text?_ofString s.defaultClientId) (Json.text?_ofString s.cloudServer)
  rw [ofJson?, toJson, hstated]
  simp only [base] at hserver hclient hcloud
  simp only [hserver, hclient, hcloud, Option.bind_eq_bind, Option.bind_some]
  rfl

/-- Settings read back with defaults for what was removed, at whatever level that was. -/
theorem Settings.ofJson?_without (s : Settings) :
    ofJson? (s.toJson.without gone []) = some (s.reset gone) := by
  obtain ⟨stated, hstated, hsession, hcode, hpalette⟩ := threeFields_without gone []
    "session" s.session.toJson SessionSettings.ofJson? {}
    "codegen" s.code.toJson CodeSettings.ofJson? {}
    "extension" s.palette.toJson PaletteSettings.ofJson? {}
    (by decide) (by decide) (SessionSettings.ofJson?_without gone _ s.session)
    (CodeSettings.ofJson?_without gone _ s.code)
    (PaletteSettings.ofJson?_without gone _ s.palette)
  rw [ofJson?, toJson, hstated]
  simp only [hsession, hcode, hpalette, Option.bind_eq_bind, Option.bind_some]
  rfl

end Sections

/-! ### Settings documents -/

/-- Settings are written as documents are. -/
theorem Settings.written_toJson (s : Settings) : Json.Written s.toJson := by
  have hfields : ∀ fs : List (String × Json), (∀ f ∈ fs, Json.Written f.2) →
      Json.Written (Json.ofFields fs) := fun fs h => Json.written_ofFields h
  have hnat := Json.written_ofNat
  have htext : ∀ text, Json.Written (Json.ofString text) := fun text => .string text
  have hsession : Json.Written s.session.toJson := hfields _ <| by
    simp only [List.forall_mem_cons]
    exact ⟨htext _, hnat _, hnat _, by simp⟩
  have hcode : Json.Written s.code.toJson := hfields _ <| by
    simp only [List.forall_mem_cons]
    exact ⟨hnat _, hnat _, hnat _, by simp⟩
  have hpalette : Json.Written s.palette.toJson := hfields _ <| by
    simp only [List.forall_mem_cons]
    exact ⟨htext _, htext _, htext _, by simp⟩
  refine hfields _ ?_
  simp only [List.forall_mem_cons]
  exact ⟨hsession, hcode, hpalette, by simp⟩

/-- A document with gaps is read as the settings that are reset there, and checked. -/
theorem Settings.ofString_without (s : Settings) (gone : List String → Bool) :
    ofString (s.toJson.without gone []).compact = (s.reset gone).validate := by
  have hwritten := Json.written_without gone s.toJson s.written_toJson []
  rw [ofString, Json.read?_compact hwritten, Option.bind_some, s.ofJson?_without gone]

/-- **Settings are read back from their document, and refused for exactly their fault.**  From a
document with members left out, fields or whole sections, comes what comes from the document of the
settings in which these fields have their defaults. -/
theorem Settings.document_reads_back :
    (∀ s : Settings, ofString s.toJson.compact =
      match s.fault? with
      | some fault => .error (.invalid fault)
      | none => .ok s) ∧
    ∀ (s : Settings) (gone : List String → Bool),
      ofString (s.toJson.without gone []).compact = ofString (s.reset gone).toJson.compact := by
  have hwhole : ∀ s : Settings, ofString s.toJson.compact = s.validate := by
    intro s
    have hnone : s.toJson.without (fun _ => false) [] = s.toJson := rfl
    rw [← hnone, s.ofString_without, s.reset_none]
  refine ⟨hwhole, fun s gone => ?_⟩
  rw [s.ofString_without gone, hwhole]

end BoardBlocks
