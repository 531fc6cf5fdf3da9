import ProtoMsgQueue.Common.ConfigFile

/-!
# Numbers in configuration files

What `LoadFromFile` makes of the text behind a numeric key. The three parsers read whatever
`strtoul` finds at the front of the text and cast it to the width of the field, so that a number
too large for the field, a negative number or a number with something behind it changes the field
instead of being refused.

`value_loadFromFile_iff` says exactly when the field ends up with the number that is written
there, or with its old value if there is none that fits.
-/

namespace ProtoMsgQueue

open TextScan BrokerConfig

/-- The keys whose values are numbers. -/
inductive NumericKey where
  | port
  | maxBatchSize
  | heartbeatIntervalMs
  | heartbeatTimeoutMs
  | heartbeatCheckIntervalMs
  | globalPublishRate
  | connPublishRate
  | rateLimitBurst
  | maxWriteBufferSize
  | defaultTtlMs
  | expirationCheckIntervalMs
  | compressionThresholdBytes
  | dedupWindowSize
  | defaultRingBufferSize
  | maxRetryCount
  | pendingTimeoutMs
  | retryIntervalMs
deriving DecidableEq, Repr

namespace NumericKey

/-- The key as it is written. -/
def key : NumericKey → String
  | port => "port"
  | maxBatchSize => "max_batch_size"
  | heartbeatIntervalMs => "heartbeat_interval_ms"
  | heartbeatTimeoutMs => "heartbeat_timeout_ms"
  | heartbeatCheckIntervalMs => "heartbeat_check_interval_ms"
  | globalPublishRate => "global_publish_rate"
  | connPublishRate => "conn_publish_rate"
  | rateLimitBurst => "rate_limit_burst"
  | maxWriteBufferSize => "max_write_buffer_size"
  | defaultTtlMs => "default_ttl_ms"
  | expirationCheckIntervalMs => "expiration_check_interval_ms"
  | compressionThresholdBytes => "compression_threshold_bytes"
  | dedupWindowSize => "dedup_window_size"
  | defaultRingBufferSize => "default_ring_buffer_size"
  | maxRetryCount => "max_retry_count"
  | pendingTimeoutMs => "pending_timeout_ms"
  | retryIntervalMs => "retry_interval_ms"

/-- The width of the field. -/
def bits : NumericKey → ℕ
  | port => 16
  | maxWriteBufferSize => 64
  | dedupWindowSize => 64
  | defaultRingBufferSize => 64
  | _ => 32

/-- The number in the field. -/
def value : NumericKey → BrokerConfig → ℕ
  | port, config => config.port.toNat
  | maxBatchSize, config => config.maxBatchSize.toNat
  | heartbeatIntervalMs, config => config.heartbeatIntervalMs.toNat
  | heartbeatTimeoutMs, config => config.heartbeatTimeoutMs.toNat
  | heartbeatCheckIntervalMs, config => config.heartbeatCheckIntervalMs.toNat
  | globalPublishRate, config => config.globalPublishRate.toNat
  | connPublishRate, config => config.connPublishRate.toNat
  | rateLimitBurst, config => config.rateLimitBurst.toNat
  | maxWriteBufferSize, config => config.maxWriteBufferSize.toNat
  | defaultTtlMs, config => config.defaultTtlMs.toNat
  | expirationCheckIntervalMs, config => config.expirationCheckIntervalMs.toNat
  | compressionThresholdBytes, config => config.compressionThresholdBytes.toNat
  | dedupWindowSize, config => config.dedupWindowSize.toNat
  | defaultRingBufferSize, config => config.defaultRingBufferSize.toNat
  | maxRetryCount, config => config.maxRetryCount.toNat
  | pendingTimeoutMs, config => config.pendingTimeoutMs.toNat
  | retryIntervalMs, config => config.retryIntervalMs.toNat

end NumericKey

/-! ### What the parsers read -/

/-- What becomes of a field of some width that holds `field`: it gets the number at the front of a
text, modulo the width, unless there is none or its absolute value does not fit into 64 bits. -/
def readNumber (bits : ℕ) (text : Text) (field : ℕ) : ℕ :=
  match leadingInteger text with
  | none => field
  | some n => if 2 ^ 64 ≤ n.natAbs then field else (n % 2 ^ bits).toNat

/-- Narrowing a number that wrapped at 64 bits is wrapping it at fewer. -/
theorem toNat_ofInt_mod {bits : ℕ} (hbits : bits ≤ 64) (n : ℤ) :
    (UInt64.ofInt n).toNat % 2 ^ bits = (n % 2 ^ bits).toNat := by
  have hdvd : (2 : ℤ) ^ bits ∣ 2 ^ 64 := by exact_mod_cast Nat.pow_dvd_pow 2 hbits
  have hpow : ((2 : ℤ) ^ bits).toNat = 2 ^ bits := by
    rw [Int.toNat_pow_of_nonneg (by decide)]
    rfl
  have hnonneg : 0 ≤ n % 2 ^ 64 := Int.emod_nonneg n (by decide)
  calc (UInt64.ofInt n).toNat % 2 ^ bits
    _ = (n % 2 ^ 64).toNat % ((2 : ℤ) ^ bits).toNat := by rw [toNat_ofInt, hpow]
    _ = (n % 2 ^ 64 % 2 ^ bits).toNat :=
      (Int.toNat_emod hnonneg (Int.pow_nonneg (by decide))).symm
    _ = (n % 2 ^ bits).toNat := by rw [Int.emod_emod_of_dvd n hdvd]

/-- Looking up a value with a parser that narrows what `stoull` reads. -/
theorem toNat_getVal {α : Type} {toNat : α → ℕ} {narrow : UInt64 → α} {bits : ℕ}
    (hbits : bits ≤ 64) (h : ∀ n, toNat (narrow n) = n.toNat % 2 ^ bits) (json : Text)
    (key : String) (field : α) :
    toNat (getVal json key (fun value => (stoull (trim value)).map narrow) field) =
      readNumber bits (extractValue json key) (toNat field) := by
  rw [getVal]
  split
  · next hempty =>
    rw [hempty]
    rfl
  · rw [stoull, leadingInteger_trim, readNumber]
    cases leadingInteger (extractValue json key) with
    | none => rfl
    | some n =>
      dsimp only
      split
      · rfl
      · rw [Option.map_some, Option.getD_some, h, toNat_ofInt_mod hbits]

theorem toNat_getVal_parseUint16 (json : Text) (key : String) (field : UInt16) :
    (getVal json key parseUint16 field).toNat =
      readNumber 16 (extractValue json key) field.toNat :=
  toNat_getVal (by decide) (fun _ => rfl) json key field

theorem toNat_getVal_parseUint32 (json : Text) (key : String) (field : UInt32) :
    (getVal json key parseUint32 field).toNat =
      readNumber 32 (extractValue json key) field.toNat :=
  toNat_getVal (by decide) (fun _ => rfl) json key field

theorem toNat_getVal_parseSizeT (json : Text) (key : String) (field : UInt64) :
    (getVal json key parseSizeT field).toNat =
      readNumber 64 (extractValue json key) field.toNat := by
  have hparser : parseSizeT = fun value => (stoull (trim value)).map id := by
    funext value
    rw [Option.map_id, id_eq, parseSizeT]
  rw [hparser]
  exact toNat_getVal (by decide) (fun n => (Nat.mod_eq_of_lt n.toNat_lt).symm) json key field

/-- Every numeric field is read in the same way. -/
theorem value_loadFields (k : NumericKey) (json : Text) (config : BrokerConfig) :
    k.value (loadFields json config) =
      readNumber k.bits (extractValue json k.key) (k.value config) := by
  cases k with
  | port => exact toNat_getVal_parseUint16 json _ _
  | maxWriteBufferSize => exact toNat_getVal_parseSizeT json _ _
  | dedupWindowSize => exact toNat_getVal_parseSizeT json _ _
  | defaultRingBufferSize => exact toNat_getVal_parseSizeT json _ _
  | _ => exact toNat_getVal_parseUint32 json _ _

/-! ### A value behind its key -/

/-- In a file without its comments, `value` is what is written behind the colon of the first
occurrence of a key, up to blanks and the comma or brace that end it. -/
def Writes (file : Text) (key : String) (value : Text) : Prop :=
  ∃ before gap blanks rest : Text,
    removeComments file = before ++ (quoted key ++ (gap ++ ':' :: (value ++ (blanks ++ rest)))) ∧
    Avoids (quoted key) before (quoted key ++ (gap ++ ':' :: (value ++ (blanks ++ rest)))) ∧
    (':' ∉ gap ∧ ',' ∉ value ∧ '}' ∉ value ∧ ∀ c ∈ blanks, c.isWhitespace = true) ∧
    (∀ c ∈ rest.head?, c = ',' ∨ c = '}')

/-- The part taken of the text behind the colon is the value with blanks and maybe a brace. -/
theorem valuePart_append {value blanks rest : Text} (hcomma : ',' ∉ value) (hbrace : '}' ∉ value)
    (hblanks : ∀ c ∈ blanks, c.isWhitespace = true) (hrest : ∀ c ∈ rest.head?, c = ',' ∨ c = '}') :
    ∃ tail, valuePart (value ++ (blanks ++ rest)) = value ++ (blanks ++ tail) ∧
      ∀ c ∈ tail.head?, c = '}' := by
  have hfree : ∀ c, c ∉ value → c.isWhitespace = false → c ∉ value ++ blanks := by
    intro c hc hblank hmem
    refine (List.mem_append.mp hmem).elim hc fun hmem => ?_
    rw [hblanks c hmem] at hblank
    cases hblank
  have hcomma' := hfree ',' hcomma (by decide)
  have hbrace' := hfree '}' hbrace (by decide)
  rw [← List.append_assoc, valuePart]
  cases rest with
  | nil =>
    have hall : ∀ c ∈ value ++ blanks, decide (c ≠ '}') = true :=
      fun c hc => decide_eq_true (ne_of_mem_of_not_mem hc hbrace')
    refine ⟨[], ?_, by rintro c ⟨⟩⟩
    rw [List.append_nil, List.append_nil, if_neg hcomma', List.takeWhile_eq_self_iff.mpr hall]
  | cons c rest =>
    split
    · next hmem =>
      rw [List.takeWhile_append_of_pos
        fun d hd => decide_eq_true (ne_of_mem_of_not_mem hd hcomma'), List.append_assoc]
      refine ⟨_, rfl, fun d hd => ?_⟩
      rw [List.takeWhile_cons] at hd
      split at hd
      · next hne =>
        rw [← Option.some_inj.mp hd]
        exact (hrest c rfl).resolve_left (of_decide_eq_true hne)
      · cases hd
    · next hmem =>
      have hc : c = '}' := (hrest c rfl).resolve_left fun h => hmem (by simp [h])
      rw [hc, takeWhile_ne_append_cons hbrace']
      refine ⟨[], by rw [List.append_nil], by rintro c ⟨⟩⟩

/-- The number at the front of what is looked up is the one at the front of the value. -/
theorem leadingInteger_extractValue {file value : Text} {k : NumericKey}
    (h : Writes file k.key value) :
    leadingInteger (extractValue (removeComments file) k.key) = leadingInteger value := by
  obtain ⟨before, gap, blanks, rest, hfile, hfirst, ⟨hgap, hcomma, hbrace, hblanks⟩, hrest⟩ := h
  obtain ⟨tail, hpart, htail⟩ := valuePart_append hcomma hbrace hblanks hrest
  have hkey : ':' ∉ quoted k.key ++ gap := by
    refine fun hmem => (List.mem_append.mp hmem).elim ?_ hgap
    cases k <;> decide
  rw [hfile, extractValue_eq hfirst hkey, leadingInteger_trim, hpart]
  refine leadingInteger_append_blanks hblanks (fun c hc => htail c hc ▸ rfl) ?_ value
  cases tail with
  | nil => rfl
  | cons c tail =>
    rw [htail c rfl]
    rfl

/-! ### The field after loading -/

/-- What a field of some width is to hold after its value was loaded: the number that is written
there if it fits, what the field held before otherwise. -/
def NumericKey.expected (k : NumericKey) (value : Text) (field : ℕ) : ℕ :=
  match numeral (trim value) with
  | none => field
  | some n => if n < 2 ^ k.bits then n else field

/-- The values that are loaded as they are to be: numbers that fit, texts without a number at the
front, numbers that do not fit into 64 bits, and numbers that wrap to what the field holds. -/
def NumericKey.Faithful (k : NumericKey) (value : Text) (field : ℕ) : Prop :=
  (∃ n, numeral (trim value) = some n ∧ n < 2 ^ k.bits) ∨
    ∀ n, leadingInteger value = some n → 2 ^ 64 ≤ n.natAbs ∨ (n % 2 ^ k.bits).toNat = field

theorem NumericKey.bits_le (k : NumericKey) : k.bits ≤ 64 := by
  cases k <;> decide

/-- A numeral that fits is read. -/
theorem readNumber_of_numeral {bits n : ℕ} {value : Text} (hbits : bits ≤ 64)
    (hn : numeral (trim value) = some n) (hfits : n < 2 ^ bits) (field : ℕ) :
    readNumber bits value field = n := by
  have hle : 2 ^ bits ≤ 2 ^ 64 := Nat.pow_le_pow_right (by decide) hbits
  have hmod : ((n : ℤ) % 2 ^ bits).toNat = n % 2 ^ bits := by
    exact_mod_cast Int.toNat_natCast (n % 2 ^ bits)
  rw [readNumber, ← leadingInteger_trim, leadingInteger_of_numeral hn]
  dsimp only
  rw [Int.natAbs_natCast, if_neg (by omega), hmod, Nat.mod_eq_of_lt hfits]

theorem readNumber_eq_self_iff {bits : ℕ} {value : Text} {field : ℕ} :
    readNumber bits value field = field ↔ ∀ n, leadingInteger value = some n →
      2 ^ 64 ≤ n.natAbs ∨ (n % 2 ^ bits).toNat = field := by
  rw [readNumber]
  cases leadingInteger value with
  | none => exact iff_of_true rfl fun n hn => absurd hn (Option.some_ne_none n).symm
  | some n =>
    dsimp only
    split
    · next hlarge => exact ⟨fun _ m hm => Or.inl (Option.some_inj.mp hm ▸ hlarge), fun _ => rfl⟩
    · next hlarge =>
      refine ⟨fun h m hm => Or.inr (Option.some_inj.mp hm ▸ h), fun h => ?_⟩
      exact (h n rfl).resolve_left hlarge

theorem readNumber_eq_expected_iff (k : NumericKey) (value : Text) (field : ℕ) :
    readNumber k.bits value field = k.expected value field ↔ k.Faithful value field := by
  rw [NumericKey.Faithful, ← readNumber_eq_self_iff]
  by_cases hfits : ∃ n, numeral (trim value) = some n ∧ n < 2 ^ k.bits
  · obtain ⟨n, hn, hlt⟩ := hfits
    rw [NumericKey.expected, hn]
    dsimp only
    rw [if_pos hlt]
    exact ⟨fun _ => Or.inl ⟨n, rfl, hlt⟩, fun _ => readNumber_of_numeral k.bits_le hn hlt field⟩
  · have hfield : k.expected value field = field := by
      rw [NumericKey.expected]
      split
      · rfl
      · next n hn => exact if_neg fun hlt => hfits ⟨n, hn, hlt⟩
    rw [hfield, or_iff_right hfits]

/-- **Numbers are kept or refused.** After a file was loaded, a numeric field holds the number
that is written behind its key, or its old value if there is none that fits, exactly if the value
is one of the faithful ones. -/
theorem value_loadFromFile_iff (k : NumericKey) (config : BrokerConfig) {file value : Text}
    (h : Writes file k.key value) :
    k.value (loadFromFile (some file) config).1 = k.expected value (k.value config) ↔
      k.Faithful value (k.value config) := by
  rw [loadFromFile, value_loadFields, readNumber, leadingInteger_extractValue h, ← readNumber]
  exact readNumber_eq_expected_iff k value (k.value config)

/-- A file with a port that does not fit into 16 bits. -/
def largePortFile : Text := "\x7b\"port\": 70000\x7d".toList

theorem writes_largePortFile : Writes largePortFile NumericKey.port.key " 70000".toList := by
  refine ⟨"\x7b".toList, [], [], "\x7d".toList, by decide, avoids_of_notMem (by decide),
    ⟨by decide, by decide, by decide, List.forall_mem_nil _⟩, ?_⟩
  rintro c ⟨⟩
  exact Or.inr rfl

/-- The old port is not one that 70000 wraps to. -/
theorem value_loadFromFile_iff_largePortFile :
    Writes largePortFile NumericKey.port.key " 70000".toList ∧
    (NumericKey.port.value (loadFromFile (some largePortFile) {}).1 =
      NumericKey.port.expected " 70000".toList 9090 ↔
      NumericKey.port.Faithful " 70000".toList 9090) :=
  ⟨writes_largePortFile, value_loadFromFile_iff .port {} writes_largePortFile⟩

/-- A port that is too large is not refused: 70000 becomes 4464 instead of leaving 9090. -/
theorem not_kept_largePortFile : ¬ ∀ (k : NumericKey) (config : BrokerConfig) (file value : Text),
    Writes file k.key value →
      k.value (loadFromFile (some file) config).1 = k.expected value (k.value config) := by
  intro h
  have hport := h .port {} _ _ writes_largePortFile
  rw [loadFromFile, value_loadFields] at hport
  revert hport
  decide

end ProtoMsgQueue
