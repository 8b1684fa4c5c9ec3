/-
# The grammar of notifications

A line can be cut in one way only (`isCut_iff`): the carriage returns and line feeds at its end do
not count, and its tokens, which have no space in them, are joined by single spaces.  What the line
is read as is then a matter of its first six tokens.  They are looked at in this order:

| token | is | or else |
| --- | --- | --- |
| 0 | `WF` | there is no marker |
| 1 | a numeral up to 255 | the opcode is bad |
| 1 | a numeral for 3 | the layout is bad |
| 3 | `5` | the layout is bad |
| 4 | the topic | the layout is bad |
| 5 | the payload, before trimming | the layout is bad |
-/

import BoardBlocks.Proofs.CommandFrames

namespace BoardBlocks
namespace Wire

/-! ### Cutting a line -/

/-- The tokens of a line: they have no space in them, and joined by single spaces they give the line
up to the line breaks at its end. -/
structure IsCut (line : String) (tokens : List String) : Prop where
  ne_nil : tokens ≠ []
  space_not_mem : ∀ t ∈ tokens, ' ' ∉ t.toList
  /-- Only line breaks stand behind the last token. -/
  exists_ending : ∃ ending : String, (∀ c ∈ ending.toList, c = '\r' ∨ c = '\n') ∧
    line = " ".intercalate tokens ++ ending
  /-- All of them do. -/
  getLast?_ne : ∀ c ∈ (" ".intercalate tokens).toList.getLast?, c ≠ '\r' ∧ c ≠ '\n'

/-- The tokens that a line is cut into. -/
def tokensOf (line : String) : List String :=
  ((dropLineEnd line.toList).splitOn ' ').map String.ofList

/-- Of a text of line breaks nothing is left. -/
theorem dropLineEnd_eq_nil {cs : List Char} (h : ∀ c ∈ cs, c = '\r' ∨ c = '\n') :
    dropLineEnd cs = [] :=
  List.rdropWhile_eq_nil_iff.2 fun c hc => by simpa using h c hc

/-- What is left of a line, and what was dropped. -/
theorem dropLineEnd_eq_iff {cs body : List Char} : dropLineEnd cs = body ↔
    (∃ ending, (∀ c ∈ ending, c = '\r' ∨ c = '\n') ∧ cs = body ++ ending) ∧
      ∀ c ∈ body.getLast?, c ≠ '\r' ∧ c ≠ '\n' := by
  constructor
  · rintro rfl
    refine ⟨⟨cs.rtakeWhile fun c => c = '\r' || c = '\n', fun c hc => ?_, ?_⟩, fun c hc => ?_⟩
    · simpa using List.mem_rtakeWhile_imp hc
    · exact List.rdropWhile_append_rtakeWhile.symm
    · have hlast := getLast?_rdropWhile cs c hc
      simpa using hlast
  · rintro ⟨⟨ending, hending, rfl⟩, hlast⟩
    rw [dropLineEnd_append hlast, dropLineEnd_eq_nil hending, List.append_nil]

/-- **A line is cut in one way.** -/
theorem isCut_iff {line : String} {tokens : List String} :
    IsCut line tokens ↔ tokens = tokensOf line := by
  have hjoin : (" ".intercalate tokens).toList = [' '].intercalate (tokens.map String.toList) := by
    rw [String.toList_intercalate]
    rfl
  constructor
  · rintro ⟨hne, hspace, ⟨ending, hending, rfl⟩, hlast⟩
    have hbody : dropLineEnd (" ".intercalate tokens ++ ending).toList =
        [' '].intercalate (tokens.map String.toList) := by
      rw [String.toList_append, dropLineEnd_append hlast, dropLineEnd_eq_nil hending, hjoin,
        List.append_nil]
    have hsplit := List.splitOn_intercalate ' ' (List.forall_mem_map.2 hspace)
      (fun h => hne (List.map_eq_nil_iff.1 h))
    rw [tokensOf, hbody, hsplit, List.map_map]
    simp [Function.comp_def]
  · rintro rfl
    obtain ⟨⟨ending, hending, hline⟩, hlast⟩ :=
      dropLineEnd_eq_iff.1 (rfl : dropLineEnd line.toList = _)
    have hbody : (" ".intercalate (tokensOf line)).toList = dropLineEnd line.toList := by
      rw [hjoin, tokensOf, List.map_map]
      simp [Function.comp_def, List.intercalate_splitOn]
    refine ⟨?_, ?_, ⟨String.ofList ending, ?_, ?_⟩, ?_⟩
    · exact fun h => List.splitOn_ne_nil _ _ (List.map_eq_nil_iff.1 h)
    · rw [tokensOf, List.forall_mem_map]
      intro t ht
      rw [String.toList_ofList]
      exact not_mem_of_mem_splitOn ht
    · rwa [String.toList_ofList]
    · rw [← String.toList_inj, String.toList_append, hbody, String.toList_ofList]
      exact hline
    · rwa [hbody]

/-! ### Numerals -/

/-- A numeral for a natural number: decimal digits, with any number of leading zeros and at most one
`+` in front. -/
def IsNumeral (token : String) (n : Nat) : Prop :=
  ∃ ds, ds ≠ [] ∧ (∀ d ∈ ds, d.isDigit = true) ∧ Text.natOf ds = n ∧
    (token.toList = ds ∨ token.toList = '+' :: ds)

/-- The digits of an opcode. -/
theorem opcodeOf?_digits {ds : List Char} {opcode : UInt8} :
    (if ds ≠ [] ∧ ds.all Char.isDigit ∧ Text.natOf ds < 256 then some (UInt8.ofNat (Text.natOf ds))
      else none) = some opcode ↔
    ds ≠ [] ∧ (∀ d ∈ ds, d.isDigit = true) ∧ Text.natOf ds = opcode.toNat := by
  have hall : ds.all Char.isDigit = true ↔ ∀ d ∈ ds, d.isDigit = true := List.all_eq_true
  constructor
  · intro h
    split at h
    · rename_i hds
      obtain ⟨hne, hdigits, hlt⟩ := hds
      have hopcode : UInt8.ofNat (Text.natOf ds) = opcode := Option.some.inj h
      have hvalue : (UInt8.ofNat (Text.natOf ds)).toNat = Text.natOf ds :=
        UInt8.toNat_ofNat_of_lt hlt
      exact ⟨hne, hall.1 hdigits, by rw [← hopcode, hvalue]⟩
    · exact nomatch h
  · rintro ⟨hne, hdigits, hvalue⟩
    have hlt : Text.natOf ds < 256 := hvalue ▸ opcode.toNat_lt
    rw [if_pos ⟨hne, hall.2 hdigits, hlt⟩, hvalue, UInt8.ofNat_toNat]

/-- **A token names an opcode if it is a numeral for it.** -/
theorem opcodeOf?_eq_some_iff {token : String} {opcode : UInt8} :
    opcodeOf? token.toList = some opcode ↔ IsNumeral token opcode.toNat := by
  have hplus : ∀ ds : List Char, (∀ d ∈ ds, d.isDigit = true) → ds.head? ≠ some '+' := by
    intro ds hdigits hhead
    exact absurd (hdigits '+' (List.mem_of_mem_head? hhead)) (by decide)
  rw [opcodeOf?, opcodeOf?_digits]
  constructor
  · rintro ⟨hne, hdigits, hvalue⟩
    split at hne <;> rename_i hhead
    · rw [if_pos hhead] at hdigits hvalue
      have hcons : token.toList = '+' :: token.toList.tail :=
        (List.cons_head?_tail (Option.mem_def.2 hhead)).symm
      exact ⟨_, hne, hdigits, hvalue, .inr hcons⟩
    · rw [if_neg hhead] at hdigits hvalue
      exact ⟨_, hne, hdigits, hvalue, .inl rfl⟩
  · rintro ⟨ds, hne, hdigits, hvalue, htoken | htoken⟩
    · rw [htoken, if_neg (hplus ds hdigits)]
      exact ⟨hne, hdigits, hvalue⟩
    · rw [htoken, if_pos (by rfl)]
      exact ⟨hne, hdigits, hvalue⟩

/-- The token after the marker is a numeral for a number. -/
def StatesOpcode (tokens : List String) (n : Nat) : Prop :=
  ∃ token, tokens[1]? = some token ∧ IsNumeral token n

/-- It is a numeral for one opcode at most. -/
theorem StatesOpcode.unique {tokens : List String} {opcode opcode' : UInt8}
    (h : StatesOpcode tokens opcode.toNat) (h' : StatesOpcode tokens opcode'.toNat) :
    opcode = opcode' := by
  obtain ⟨token, htoken, hnumeral⟩ := h
  obtain ⟨token', htoken', hnumeral'⟩ := h'
  obtain rfl : token = token' := Option.some.inj (htoken ▸ htoken')
  have hopcode := opcodeOf?_eq_some_iff.2 hnumeral
  rw [opcodeOf?_eq_some_iff.2 hnumeral'] at hopcode
  exact (Option.some.inj hopcode).symm

/-! ### Frames -/

namespace Frame

/-- A line that does not start with the marker is refused for that. -/
theorem ofTokens_of_ne {head : List Char} (h : head ≠ marker.toList) (rest : List (List Char)) :
    ofTokens (head :: rest) = .error .missingMarker := by
  rw [ofTokens.eq_def]
  exact if_neg h

/-- A line without an opcode behind the marker is refused for that. -/
theorem ofTokens_of_none {token : List Char} (h : opcodeOf? token = none)
    (fields : List (List Char)) :
    ofTokens (marker.toList :: token :: fields) = .error .badOpcode := by
  simp [ofTokens, h]

/-- A line with marker and opcode is a frame, and what follows are its fields. -/
theorem ofTokens_of_some {token : List Char} {opcode : UInt8} (h : opcodeOf? token = some opcode)
    (fields : List (List Char)) :
    ofTokens (marker.toList :: token :: fields) = .ok ⟨opcode, fields.map String.ofList⟩ := by
  simp [ofTokens, h]

/-- **A line is a frame if it has the marker and an opcode**, which are looked for in this order. -/
theorem parse_cases (line : String) :
    ((tokensOf line)[0]? ≠ some "WF" ∧ parse line = .error .missingMarker) ∨
    ((tokensOf line)[0]? = some "WF" ∧ (¬∃ n ≤ 255, StatesOpcode (tokensOf line) n) ∧
      parse line = .error .badOpcode) ∨
    ((tokensOf line)[0]? = some "WF" ∧ ∃ opcode : UInt8,
      StatesOpcode (tokensOf line) opcode.toNat ∧
        parse line = .ok ⟨opcode, (tokensOf line).drop 2⟩) := by
  rw [parse, tokensOf]
  cases (dropLineEnd line.toList).splitOn ' ' with
  | nil => exact .inl ⟨by simp, rfl⟩
  | cons head rest =>
    by_cases hhead : head = marker.toList
    · subst hhead
      cases rest with
      | nil => exact .inr (.inl ⟨rfl, by simp [StatesOpcode], rfl⟩)
      | cons token fields =>
        have hstates : ∀ opcode : UInt8, opcodeOf? token = some opcode ↔
            StatesOpcode ((marker.toList :: token :: fields).map String.ofList) opcode.toNat := by
          intro opcode
          have hnumeral : opcodeOf? (String.ofList token).toList = some opcode ↔ _ :=
            opcodeOf?_eq_some_iff
          rw [String.toList_ofList] at hnumeral
          simp [StatesOpcode, hnumeral]
        cases hopcode : opcodeOf? token with
        | none =>
          refine .inr (.inl ⟨rfl, ?_, ofTokens_of_none hopcode fields⟩)
          rintro ⟨n, hn, hstate⟩
          have hbyte : (UInt8.ofNat n).toNat = n := UInt8.toNat_ofNat_of_lt (Nat.lt_succ_of_le hn)
          rw [← hbyte, ← hstates, hopcode] at hstate
          exact absurd hstate (by simp)
        | some opcode =>
          exact .inr (.inr ⟨rfl, opcode, (hstates opcode).1 hopcode,
            ofTokens_of_some hopcode fields⟩)
    · have hne : String.ofList head ≠ "WF" := by
        rintro h
        exact hhead (by rw [← String.toList_ofList (l := head), h]; rfl)
      exact .inl ⟨by simpa using hne, ofTokens_of_ne hhead rest⟩

end Frame

namespace Notification

/-- What a frame has to state to be a notification. -/
theorem ofFrame_eq_ok_iff {f : Frame} {n : Notification} : ofFrame f = .ok n ↔
    f.opcode = notifyOpcode ∧ f.fields[1]? = some "5" ∧ f.fields[2]? = some n.topic ∧
      f.fields[3]?.map Text.trim = some n.payload := by
  obtain ⟨opcode, fields⟩ := f
  obtain ⟨topic, payload⟩ := n
  rcases fields with _ | ⟨count, _ | ⟨kind, _ | ⟨topic', _ | ⟨payload', rest⟩⟩⟩⟩
  · simp [ofFrame]
  · simp [ofFrame]
  · simp [ofFrame]
  · simp [ofFrame]
  · have hframe : ofFrame ⟨opcode, count :: kind :: topic' :: payload' :: rest⟩ =
        if opcode = notifyOpcode ∧ kind = "5" then .ok ⟨topic', Text.trim payload'⟩
        else .error .badLayout := rfl
    rw [hframe]
    by_cases hkind : opcode = notifyOpcode ∧ kind = "5"
    · simp [hkind]
    · rw [if_neg hkind]
      constructor
      · exact fun h => nomatch h
      · rintro ⟨hopcode, hfive, -⟩
        exact absurd ⟨hopcode, Option.some.inj hfive⟩ hkind

/-- Any other frame has a bad layout. -/
theorem ofFrame_eq_error {f : Frame} {e : FrameError} (h : ofFrame f = .error e) :
    e = .badLayout := by
  rw [ofFrame] at h
  split at h
  · split at h
    · exact nomatch h
    · exact (Except.error.inj h).symm
  · exact (Except.error.inj h).symm

end Notification

/-! ### Notifications -/

/-- The tokens behind the marker are those of a notification with a topic. -/
def StatesTopic (tokens : List String) : Prop :=
  StatesOpcode tokens 3 ∧ 6 ≤ tokens.length ∧ tokens[3]? = some "5"

/-- A line with these tokens has a topic and a payload. -/
theorem StatesTopic.exists_eq {tokens : List String} (h : StatesTopic tokens) :
    ∃ topic payload, tokens[4]? = some topic ∧ tokens[5]? = some payload := by
  obtain ⟨-, hlength, -⟩ := h
  exact ⟨_, _, List.getElem?_eq_getElem (by omega), List.getElem?_eq_getElem (by omega)⟩

namespace Notification

/-- The line of a frame with an opcode is a notification if it states a topic. -/
theorem ofFrame_tokens {tokens : List String} {opcode : UInt8}
    (hopcode : StatesOpcode tokens opcode.toNat) {n : Notification} :
    ofFrame ⟨opcode, tokens.drop 2⟩ = .ok n ↔
      StatesTopic tokens ∧ tokens[4]? = some n.topic ∧
        tokens[5]?.map Text.trim = some n.payload := by
  rw [ofFrame_eq_ok_iff]
  simp only [List.getElem?_drop, Nat.reduceAdd]
  constructor
  · rintro ⟨rfl, hkind, htopic, hpayload⟩
    obtain ⟨payload, hfive, -⟩ := Option.map_eq_some_iff.1 hpayload
    obtain ⟨hlength, -⟩ := List.getElem?_eq_some_iff.1 hfive
    exact ⟨⟨hopcode, hlength, hkind⟩, htopic, hpayload⟩
  · rintro ⟨⟨hthree, -, hkind⟩, htopic, hpayload⟩
    have hnotify : opcode = notifyOpcode := hopcode.unique hthree
    exact ⟨hnotify, hkind, htopic, hpayload⟩

/-- **What a line is read as.** -/
theorem parse_tokens (line : String) :
    (parse line = .error .missingMarker ↔ (tokensOf line)[0]? ≠ some "WF") ∧
    (parse line = .error .badOpcode ↔ (tokensOf line)[0]? = some "WF" ∧
      ¬∃ n ≤ 255, StatesOpcode (tokensOf line) n) ∧
    (∀ n, parse line = .ok n ↔ (tokensOf line)[0]? = some "WF" ∧ StatesTopic (tokensOf line) ∧
      (tokensOf line)[4]? = some n.topic ∧
        (tokensOf line)[5]?.map Text.trim = some n.payload) ∧
    (parse line = .error .badLayout ↔ (tokensOf line)[0]? = some "WF" ∧
      (∃ n ≤ 255, StatesOpcode (tokensOf line) n) ∧ ¬StatesTopic (tokensOf line)) := by
  have hthree : StatesTopic (tokensOf line) → ∃ n ≤ 255, StatesOpcode (tokensOf line) n :=
    fun h => ⟨3, by decide, h.1⟩
  rcases Frame.parse_cases line with
    ⟨hmarker, hframe⟩ | ⟨hmarker, hopcode, hframe⟩ | ⟨hmarker, opcode, hopcode, hframe⟩
  · have hparse : parse line = .error .missingMarker := by rw [parse, hframe]; rfl
    simp [hparse, hmarker]
  · have hparse : parse line = .error .badOpcode := by rw [parse, hframe]; rfl
    have htopic : ¬StatesTopic (tokensOf line) := fun h => hopcode (hthree h)
    simp [hparse, hmarker, hopcode, htopic]
  · have hparse : parse line = ofFrame ⟨opcode, (tokensOf line).drop 2⟩ := by
      rw [parse, hframe]
      rfl
    have hbyte : ∃ n ≤ 255, StatesOpcode (tokensOf line) n :=
      ⟨opcode.toNat, Nat.le_of_lt_succ opcode.toNat_lt, hopcode⟩
    have hok : ∀ n, parse line = .ok n ↔ (tokensOf line)[0]? = some "WF" ∧
        StatesTopic (tokensOf line) ∧ (tokensOf line)[4]? = some n.topic ∧
          (tokensOf line)[5]?.map Text.trim = some n.payload := by
      intro n
      rw [hparse, ofFrame_tokens hopcode, and_iff_right hmarker]
    cases hresult : parse line with
    | ok n =>
      have htopic : StatesTopic (tokensOf line) := ((hok n).1 hresult).2.1
      rw [hresult] at hok
      exact ⟨by simp [hmarker], by simp [hbyte], hok, by simp [htopic]⟩
    | error e =>
      have hlayout : e = .badLayout := ofFrame_eq_error (hparse ▸ hresult)
      subst hlayout
      have htopic : ¬StatesTopic (tokensOf line) := by
        intro h
        obtain ⟨topic, payload, hfour, hfive⟩ := h.exists_eq
        have hread := (hok ⟨topic, Text.trim payload⟩).2 ⟨hmarker, h, hfour, by rw [hfive]; rfl⟩
        rw [hresult] at hread
        exact nomatch hread
      rw [hresult] at hok
      exact ⟨by simp [hmarker], by simp [hbyte], hok, by simp [hmarker, hbyte, htopic]⟩

/-- A line that ends in a trimmed payload does not end in a line break, even if the payload is
empty. -/
theorem getLast?_payload (front : List Char) {payload : String}
    (htrim : Text.trim payload = payload) :
    ∀ c ∈ (front ++ ' ' :: payload.toList).getLast?, c ≠ '\r' ∧ c ≠ '\n' := by
  intro c hc
  have hpayload := Text.stripBlank_getLast? payload.toList
  rw [← Text.toList_trim, htrim] at hpayload
  rw [List.getLast?_append, List.getLast?_cons] at hc
  cases hend : payload.toList.getLast? with
  | none =>
    obtain rfl : ' ' = c := by simpa [hend] using hc
    decide
  | some d =>
    obtain rfl : d = c := by simpa [hend] using hc
    exact hpayload d hend

/-- What is left of further tokens: nothing, or something behind a space. -/
theorem dropLineEnd_further {further ending : String}
    (hfurther : further = "" ∨ ∃ more, further = " " ++ more)
    (hending : ∀ c ∈ ending.toList, c = '\r' ∨ c = '\n') :
    dropLineEnd (further ++ ending).toList = [] ∨
      ∃ more, dropLineEnd (further ++ ending).toList = ' ' :: more := by
  rcases hfurther with rfl | ⟨more, rfl⟩
  · rw [String.empty_append]
    exact .inl (dropLineEnd_eq_nil hending)
  · rw [String.append_assoc, String.toList_append]
    exact .inr ⟨_, dropLineEnd_append (by simp) _⟩

/-- The tokens of a line with a topic and a payload, whatever comes behind it. -/
theorem tokensOf_topicLine {count topic payload further ending : String}
    (hspace : ∀ t ∈ [count, topic, payload], ' ' ∉ t.toList)
    (htrim : Text.trim payload = payload)
    (hfurther : further = "" ∨ ∃ more, further = " " ++ more)
    (hending : ∀ c ∈ ending.toList, c = '\r' ∨ c = '\n') :
    ∃ more, tokensOf ("WF 3 " ++ count ++ " 5 " ++ topic ++ " " ++ payload ++ further ++ ending) =
      ["WF", "3", count, "5", topic, payload] ++ more := by
  let tokens := ["WF", "3", count, "5", topic, payload]
  let front := "WF 3 ".toList ++ count.toList ++ " 5 ".toList ++ topic.toList
  have hplain : ∀ t ∈ tokens, ' ' ∉ t.toList := by
    simp only [tokens, List.forall_mem_cons] at hspace ⊢
    obtain ⟨hcount, htopic, hpayload, hnil⟩ := hspace
    exact ⟨by decide, by decide, hcount, by decide, htopic, hpayload, hnil⟩
  have hjoin : front ++ ' ' :: payload.toList = [' '].intercalate (tokens.map String.toList) := by
    simp [tokens, front, List.intercalate_cons_cons]
  have hsplit : (front ++ ' ' :: payload.toList).splitOn ' ' = tokens.map String.toList := by
    rw [hjoin]
    exact List.splitOn_intercalate ' ' (List.forall_mem_map.2 hplain) (by simp [tokens])
  have hline : ("WF 3 " ++ count ++ " 5 " ++ topic ++ " " ++ payload ++ further ++ ending).toList =
      (front ++ ' ' :: payload.toList) ++ (further ++ ending).toList := by
    simp [front]
  have hback : (tokens.map String.toList).map String.ofList = tokens := by
    simp [Function.comp_def]
  rw [tokensOf, hline, dropLineEnd_append (getLast?_payload front htrim)]
  rcases dropLineEnd_further hfurther hending with hrest | ⟨more, hrest⟩
  · rw [hrest, List.append_nil, hsplit, hback]
    exact ⟨[], rfl⟩
  · rw [hrest, List.splitOn_append_cons_self, hsplit, List.map_append, hback]
    exact ⟨_, rfl⟩

/-- **A line is read by its grammar.**  There is one way to cut it into tokens, and what it is read
as, or why it is refused, is seen from these.  So a line with a topic and a payload is read as just
these, whatever count it states and whatever further tokens it has. -/
theorem parse_grammar :
    (∀ line, ∃ tokens, (∀ ts, IsCut line ts ↔ ts = tokens) ∧
      (parse line = .error .missingMarker ↔ tokens[0]? ≠ some "WF") ∧
      (parse line = .error .badOpcode ↔
        tokens[0]? = some "WF" ∧ ¬∃ n ≤ 255, StatesOpcode tokens n) ∧
      (∀ n, parse line = .ok n ↔ tokens[0]? = some "WF" ∧ StatesTopic tokens ∧
        tokens[4]? = some n.topic ∧ tokens[5]?.map Text.trim = some n.payload) ∧
      (parse line = .error .badLayout ↔ tokens[0]? = some "WF" ∧
        (∃ n ≤ 255, StatesOpcode tokens n) ∧ ¬StatesTopic tokens)) ∧
    ∀ count topic payload further ending : String,
      (∀ t ∈ [count, topic, payload], ' ' ∉ t.toList) → Text.trim payload = payload →
      (further = "" ∨ ∃ more, further = " " ++ more) →
      (∀ c ∈ ending.toList, c = '\r' ∨ c = '\n') →
        parse ("WF 3 " ++ count ++ " 5 " ++ topic ++ " " ++ payload ++ further ++ ending) =
          .ok ⟨topic, payload⟩ := by
  refine ⟨fun line => ⟨tokensOf line, fun ts => isCut_iff, parse_tokens line⟩, ?_⟩
  intro count topic payload further ending hspace htrim hfurther hending
  obtain ⟨more, htokens⟩ := tokensOf_topicLine hspace htrim hfurther hending
  obtain ⟨-, -, hok, -⟩ := parse_tokens
    ("WF 3 " ++ count ++ " 5 " ++ topic ++ " " ++ payload ++ further ++ ending)
  have hthree : IsNumeral "3" 3 := ⟨['3'], by simp, by simp, by decide, .inl rfl⟩
  rw [hok, htokens]
  exact ⟨rfl, ⟨⟨"3", rfl, hthree⟩, by simp, rfl⟩, rfl, congrArg some htrim⟩

/-- Nothing but spaces stands for an empty count, topic and payload; a tab in a payload stays, and
tokens behind it do not count. -/
theorem parse_grammar_empty :
    parse "WF 3  5  \r\n" = .ok ⟨"", ""⟩ ∧ parse "WF 3 2 5 /t 4\t2 0  \n" = .ok ⟨"/t", "4\t2"⟩ := by
  have hempty := parse_grammar.2 "" "" "" "" "\r\n" (by decide) (by decide) (.inl rfl) (by simp)
  have hfurther := parse_grammar.2 "2" "/t" "4\t2" " 0  " "\n" (by decide) (by decide)
    (.inr ⟨"0  ", rfl⟩) (by simp)
  exact ⟨hempty, hfurther⟩

end Notification

end Wire
end BoardBlocks
