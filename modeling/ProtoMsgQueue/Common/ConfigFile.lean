import Mathlib.Algebra.Ring.Int.Defs
import Mathlib.Algebra.Ring.Nat
import ProtoMsgQueue.Common.Config
import ProtoMsgQueue.Lib.TextScan

/-!
# Configuration files

`LoadFromFile` and `SaveToFile` of `common/config.cpp` with their helpers. A file is its text,
one character for each byte. The text is not parsed as a whole: line comments are removed, and
each setting is looked up by a search for its quoted key, behind which the text up to a comma,
or up to a closing brace if there is no comma any more, is its value.

`loadFromFile_saveToFile` says that a saved configuration loads back, whatever it is loaded into.
-/

namespace ProtoMsgQueue

open TextScan

/-- A text (`std::string`). -/
abbrev Text := List Char

/-! ### Values -/

/-- `ParseBool`: none if the text is no truth value. -/
def parseBool (value : Text) : Option Bool :=
  let v := trim value
  if v = "true".toList || v = "1".toList then some true
  else if v = "false".toList || v = "0".toList then some false
  else none

/-- `std::stoul` and `std::stoull` with 64 bits: none where they throw, that is without a number
at the front of the text and for one whose absolute value does not fit. A negative number is
negated in 64 bits. -/
def stoull (text : Text) : Option UInt64 :=
  match leadingInteger text with
  | none => none
  | some n => if 2 ^ 64 ≤ n.natAbs then none else some (UInt64.ofInt n)

/-- `ParseUint32`. -/
def parseUint32 (value : Text) : Option UInt32 := (stoull (trim value)).map UInt64.toUInt32

/-- `ParseSizeT`. -/
def parseSizeT (value : Text) : Option UInt64 := stoull (trim value)

/-- `ParseUint16`. -/
def parseUint16 (value : Text) : Option UInt16 := (stoull (trim value)).map UInt64.toUInt16

/-- A key between quotes. -/
def quoted (key : String) : Text := '"' :: (key.toList ++ ['"'])

/-- `ExtractValue`: the value behind a key; empty without the key or a colon behind it. -/
def extractValue (line : Text) (key : String) : Text :=
  match find line (quoted key) 0 with
  | none => []
  | some pos =>
    match find line [':'] pos with
    | none => []
    | some pos =>
      let comma :=
        match find line [','] pos with
        | some comma => comma
        | none => (find line ['}'] pos).getD line.length
      trim ((line.drop (pos + 1)).take (comma - pos - 1))

/-- What `extractValue` takes of the text behind a colon. -/
def valuePart (text : Text) : Text :=
  if ',' ∈ text then text.takeWhile (· ≠ ',') else text.takeWhile (· ≠ '}')

theorem take_length_valuePart (text : Text) :
    text.take (valuePart text).length = valuePart text := by
  rw [valuePart]
  split
  · exact (List.prefix_iff_eq_take.mp (List.takeWhile_prefix _)).symm
  · exact (List.prefix_iff_eq_take.mp (List.takeWhile_prefix _)).symm

/-- Behind a colon the search for where the value ends stops at the end of the part taken. -/
theorem find_valuePart (skipped text : Text) :
    (match find (skipped ++ ':' :: text) [','] skipped.length with
    | some comma => comma
    | none => (find (skipped ++ ':' :: text) ['}'] skipped.length).getD
        (skipped ++ ':' :: text).length) = skipped.length + 1 + (valuePart text).length := by
  rw [find_singleton, find_singleton, valuePart]
  by_cases hcomma : ',' ∈ text
  · rw [if_pos (List.mem_cons_of_mem _ hcomma), if_pos hcomma, List.takeWhile_cons,
      if_pos (by decide), List.length_cons, Nat.add_right_comm, Nat.add_assoc]
  · have hcomma' : ',' ∉ ':' :: text := by simp [hcomma]
    rw [if_neg hcomma', if_neg hcomma]
    by_cases hbrace : '}' ∈ text
    · rw [if_pos (List.mem_cons_of_mem _ hbrace), List.takeWhile_cons, if_pos (by decide),
        List.length_cons, Option.getD_some, Nat.add_right_comm, Nat.add_assoc]
    · have hbrace' : '}' ∉ ':' :: text := by simp [hbrace]
      have hall : ∀ c ∈ text, decide (c ≠ '}') = true := by
        intro c hc
        exact decide_eq_true (ne_of_mem_of_not_mem hc hbrace)
      rw [if_neg hbrace', Option.getD_none, List.takeWhile_eq_self_iff.mpr hall,
        List.length_append, List.length_cons, Nat.add_right_comm, Nat.add_assoc]

/-- The value of a key is the part behind the first colon behind its first occurrence. -/
theorem extractValue_eq {before gap text : Text} {key : String}
    (hfirst : Avoids (quoted key) before (quoted key ++ (gap ++ ':' :: text)))
    (hgap : ':' ∉ quoted key ++ gap) :
    extractValue (before ++ (quoted key ++ (gap ++ ':' :: text))) key = trim (valuePart text) := by
  have hkey : find (before ++ (quoted key ++ (gap ++ ':' :: text))) (quoted key) 0 =
      some before.length := by
    have := find_append [] hfirst
    rwa [List.nil_append, List.length_nil, Nat.zero_add] at this
  have hcolon : find (before ++ (quoted key ++ (gap ++ ':' :: text))) [':'] before.length =
      some (before ++ (quoted key ++ gap)).length := by
    rw [← List.append_assoc (quoted key), List.length_append]
    exact find_append before (avoids_of_notMem hgap)
  rw [extractValue, hkey]
  dsimp only
  rw [hcolon]
  dsimp only
  rw [← List.append_assoc (quoted key), ← List.append_assoc before, find_valuePart,
    List.drop_length_add_append, List.drop_succ_cons, List.drop_zero, Nat.add_assoc,
    Nat.add_sub_cancel_left, Nat.add_sub_cancel_left, take_length_valuePart]

/-! ### Comments -/

/-- Where the loop that removes comments is. -/
inductive CommentState where
  | code
  | string
  | comment
deriving DecidableEq, Repr

/-- The loop that removes comments, behind the character `prev`. A comment goes up to the end of
its line, which is removed with it. -/
def removeCommentsFrom : CommentState → Option Char → Text → Text
  | _, _, [] => []
  | .comment, _, c :: content =>
    removeCommentsFrom (if c = '\n' then .code else .comment) (some c) content
  | .code, prev, c :: content =>
    if c = '"' ∧ prev ≠ some '\\' then c :: removeCommentsFrom .string (some c) content
    else if c = '/' ∧ content.head? = some '/' then removeCommentsFrom .comment (some c) content
    else c :: removeCommentsFrom .code (some c) content
  | .string, prev, c :: content =>
    c :: removeCommentsFrom (if c = '"' ∧ prev ≠ some '\\' then .code else .string) (some c) content

/-- A text without its comments. -/
def removeComments (content : Text) : Text := removeCommentsFrom .code none content

theorem removeCommentsFrom_of_notMem {state : CommentState} {prev : Option Char} {content : Text}
    (hstate : state ≠ .comment) (h : '/' ∉ content) :
    removeCommentsFrom state prev content = content := by
  induction content generalizing state prev with
  | nil => rw [removeCommentsFrom]
  | cons c content ih =>
    rw [List.mem_cons, not_or] at h
    cases state with
    | comment => exact absurd rfl hstate
    | code =>
      rw [removeCommentsFrom]
      split
      · rw [ih (by decide) h.2]
      · rw [if_neg fun hslash => h.1 hslash.1.symm, ih (by decide) h.2]
    | string =>
      rw [removeCommentsFrom, ih _ h.2]
      split <;> decide

/-- There is no comment in a text without a slash. -/
theorem removeComments_of_notMem {content : Text} (h : '/' ∉ content) :
    removeComments content = content :=
  removeCommentsFrom_of_notMem (by decide) h

namespace BrokerConfig

/-! ### Loading -/

/-- `GetVal` into a field: the field keeps its value if there is none in the text, or one that
the parser refuses. -/
def getVal {α : Type} (json : Text) (key : String) (parser : Text → Option α) (field : α) : α :=
  let val := extractValue json key
  if val = [] then field else (parser val).getD field

/-- The fields after their values were looked up in a text without comments. -/
def loadFields (json : Text) (config : BrokerConfig) : BrokerConfig where
  port := getVal json "port" parseUint16 config.port
  batchPublishEnabled :=
    (parseBool (extractValue json "batch_publish_enabled")).getD config.batchPublishEnabled
  batchPushEnabled :=
    (parseBool (extractValue json "batch_push_enabled")).getD config.batchPushEnabled
  maxBatchSize := getVal json "max_batch_size" parseUint32 config.maxBatchSize
  heartbeatEnabled :=
    (parseBool (extractValue json "heartbeat_enabled")).getD config.heartbeatEnabled
  heartbeatIntervalMs :=
    getVal json "heartbeat_interval_ms" parseUint32 config.heartbeatIntervalMs
  heartbeatTimeoutMs := getVal json "heartbeat_timeout_ms" parseUint32 config.heartbeatTimeoutMs
  heartbeatCheckIntervalMs :=
    getVal json "heartbeat_check_interval_ms" parseUint32 config.heartbeatCheckIntervalMs
  rateLimitEnabled :=
    (parseBool (extractValue json "rate_limit_enabled")).getD config.rateLimitEnabled
  globalPublishRate := getVal json "global_publish_rate" parseUint32 config.globalPublishRate
  connPublishRate := getVal json "conn_publish_rate" parseUint32 config.connPublishRate
  rateLimitBurst := getVal json "rate_limit_burst" parseUint32 config.rateLimitBurst
  maxWriteBufferSize := getVal json "max_write_buffer_size" parseSizeT config.maxWriteBufferSize
  ttlEnabled := (parseBool (extractValue json "ttl_enabled")).getD config.ttlEnabled
  defaultTtlMs := getVal json "default_ttl_ms" parseUint32 config.defaultTtlMs
  expirationCheckIntervalMs :=
    getVal json "expiration_check_interval_ms" parseUint32 config.expirationCheckIntervalMs
  compressionEnabled :=
    (parseBool (extractValue json "compression_enabled")).getD config.compressionEnabled
  compressionThresholdBytes :=
    getVal json "compression_threshold_bytes" parseUint32 config.compressionThresholdBytes
  zeroCopyEnabled :=
    (parseBool (extractValue json "zero_copy_enabled")).getD config.zeroCopyEnabled
  dedupEnabled := (parseBool (extractValue json "dedup_enabled")).getD config.dedupEnabled
  dedupWindowSize := getVal json "dedup_window_size" parseSizeT config.dedupWindowSize
  defaultRingBufferSize :=
    getVal json "default_ring_buffer_size" parseSizeT config.defaultRingBufferSize
  maxRetryCount := getVal json "max_retry_count" parseUint32 config.maxRetryCount
  pendingTimeoutMs := getVal json "pending_timeout_ms" parseUint32 config.pendingTimeoutMs
  retryIntervalMs := getVal json "retry_interval_ms" parseUint32 config.retryIntervalMs

/-- `LoadFromFile`; `none` is a file that cannot be opened. -/
def loadFromFile (file : Option Text) (config : BrokerConfig) : BrokerConfig × Bool :=
  match file with
  | none => (config, false)
  | some content => (loadFields (removeComments content) config, true)

/-! ### Saving -/

/-- A number as it is written. -/
def numberText (n : ℕ) : Text := (toString n).toList

/-- A truth value as it is written. -/
def boolText (b : Bool) : Text := if b then "true".toList else "false".toList

/-- The keys and values of a configuration in the order in which they are written. -/
def entries (config : BrokerConfig) : List (String × Text) := [
  ("port", numberText config.port.toNat),
  ("batch_publish_enabled", boolText config.batchPublishEnabled),
  ("batch_push_enabled", boolText config.batchPushEnabled),
  ("max_batch_size", numberText config.maxBatchSize.toNat),
  ("heartbeat_enabled", boolText config.heartbeatEnabled),
  ("heartbeat_interval_ms", numberText config.heartbeatIntervalMs.toNat),
  ("heartbeat_timeout_ms", numberText config.heartbeatTimeoutMs.toNat),
  ("heartbeat_check_interval_ms", numberText config.heartbeatCheckIntervalMs.toNat),
  ("rate_limit_enabled", boolText config.rateLimitEnabled),
  ("global_publish_rate", numberText config.globalPublishRate.toNat),
  ("conn_publish_rate", numberText config.connPublishRate.toNat),
  ("rate_limit_burst", numberText config.rateLimitBurst.toNat),
  ("max_write_buffer_size", numberText config.maxWriteBufferSize.toNat),
  ("ttl_enabled", boolText config.ttlEnabled),
  ("default_ttl_ms", numberText config.defaultTtlMs.toNat),
  ("expiration_check_interval_ms", numberText config.expirationCheckIntervalMs.toNat),
  ("compression_enabled", boolText config.compressionEnabled),
  ("compression_threshold_bytes", numberText config.compressionThresholdBytes.toNat),
  ("zero_copy_enabled", boolText config.zeroCopyEnabled),
  ("dedup_enabled", boolText config.dedupEnabled),
  ("dedup_window_size", numberText config.dedupWindowSize.toNat),
  ("default_ring_buffer_size", numberText config.defaultRingBufferSize.toNat),
  ("max_retry_count", numberText config.maxRetryCount.toNat),
  ("pending_timeout_ms", numberText config.pendingTimeoutMs.toNat),
  ("retry_interval_ms", numberText config.retryIntervalMs.toNat)]

/-- A line of a saved configuration, without what ends it. -/
def entryText (entry : String × Text) : Text :=
  "  ".toList ++ (quoted entry.1 ++ (": ".toList ++ entry.2))

/-- Lines that end in commas, but for the last one. -/
def linesText : List (String × Text) → Text
  | [] => []
  | [entry] => entryText entry ++ "\n".toList
  | entry :: entries => entryText entry ++ (",\n".toList ++ linesText entries)

/-- `SaveToFile`: the text of the file, if it can be opened. -/
def saveToFile (config : BrokerConfig) : Text :=
  "\x7b\n".toList ++ (linesText config.entries ++ "\x7d\n".toList)

/-! ### Plain texts -/

/-- Keys and values are made of these characters. -/
def isPlain (c : Char) : Bool := c.isAlphanum || c = '_'

theorem notMem_of_isPlain {text : Text} {c : Char} (h : ∀ c ∈ text, isPlain c = true)
    (hc : isPlain c = false) : c ∉ text := by
  intro hmem
  rw [h c hmem] at hc
  cases hc

theorem isWhitespace_of_isPlain {c : Char} (h : isPlain c = true) : c.isWhitespace = false := by
  have hne : ∀ d : Char, isPlain d = false → c ≠ d := by
    rintro d hd rfl
    rw [h] at hd
    cases hd
  simp [Char.isWhitespace, hne ' ' (by decide), hne '\t' (by decide), hne '\r' (by decide),
    hne '\n' (by decide)]

theorem numberText_eq (n : ℕ) : numberText n = Nat.toDigits 10 n := by
  rw [numberText, Nat.toString_eq_repr, Nat.toList_repr]

theorem isPlain_of_mem_numberText {n : ℕ} : ∀ c ∈ numberText n, isPlain c = true := by
  intro c hc
  rw [numberText_eq] at hc
  rw [isPlain, Char.isAlphanum, Nat.isDigit_of_mem_toDigits (by decide) (by decide) hc,
    Bool.or_true, Bool.true_or]

theorem isPlain_of_mem_boolText {b : Bool} : ∀ c ∈ boolText b, isPlain c = true := by
  cases b <;> exact List.all_iff_forall_prop.mp (by decide)

theorem numberText_ne_nil (n : ℕ) : numberText n ≠ [] := by
  rw [numberText_eq]
  exact Nat.toDigits_ne_nil

/-- Neither key nor value of an entry has a character that means something in the file. -/
def PlainEntry (entry : String × Text) : Prop :=
  (∀ c ∈ entry.1.toList, isPlain c = true) ∧ ∀ c ∈ entry.2, isPlain c = true

/-! ### The lines of a saved configuration -/

/-- A quoted key at the front of another one is the other key. -/
theorem eq_of_quoted_front {key key' : String} {text : Text}
    (hkey : '"' ∉ key.toList) (hkey' : '"' ∉ key'.toList)
    (h : quoted key <+: '"' :: (key'.toList ++ '"' :: text)) : key = key' := by
  obtain ⟨rest, hrest⟩ := (List.cons_prefix_cons.mp h).2
  rw [List.append_assoc, List.singleton_append] at hrest
  rw [← String.toList_inj, ← takeWhile_ne_append_cons hkey rest, hrest,
    takeWhile_ne_append_cons hkey']

/-- A line of another entry has no occurrence of a quoted key. -/
theorem avoids_entryText {key : String} {entry : String × Text} {after rest : Text}
    (hkey : ∀ c ∈ key.toList, isPlain c = true) (hentry : PlainEntry entry) (hne : key ≠ entry.1)
    (hafter : '"' ∉ after) : Avoids (quoted key) (entryText entry ++ after) rest := by
  have hquote := notMem_of_isPlain hkey (c := '"') (by decide)
  have hquote' := notMem_of_isPlain hentry.1 (c := '"') (by decide)
  have hvalue := notMem_of_isPlain hentry.2 (c := '"') (by decide)
  have hcolon := notMem_of_isPlain hkey (c := ':') (by decide)
  have hline : entryText entry ++ after =
      "  ".toList ++ ('"' :: (entry.1.toList ++ ('"' :: (": ".toList ++ (entry.2 ++ after))))) := by
    simp [entryText, quoted]
  have hopen : ¬ quoted key <+:
      '"' :: (entry.1.toList ++ '"' :: (": ".toList ++ (entry.2 ++ (after ++ rest)))) :=
    fun h => hne (eq_of_quoted_front hquote hquote' h)
  have hclose : ¬ quoted key <+: '"' :: ':' :: ' ' :: (entry.2 ++ (after ++ rest)) := by
    intro h
    obtain ⟨text, htext⟩ := (List.cons_prefix_cons.mp h).2
    have hhead := congrArg List.head? htext
    rw [List.head?_append_of_ne_nil _ (by simp)] at hhead
    have hmem : ':' ∈ key.toList ++ ['"'] := List.mem_of_mem_head? hhead
    simp [hcolon] at hmem
  have hend : '"' ∉ ": ".toList ++ (entry.2 ++ after) := by
    simp [hvalue, hafter]
  rw [hline, avoids_append]
  refine ⟨avoids_of_notMem (by decide), avoids_cons.mpr ⟨?_, avoids_append.mpr ⟨?_, ?_⟩⟩⟩
  · simpa using hopen
  · exact avoids_of_notMem hquote'
  · exact avoids_cons.mpr ⟨by simpa using hclose, avoids_of_notMem hend⟩

/-- Lines in front of others. -/
def precedingText (entries : List (String × Text)) : Text :=
  entries.flatMap fun entry => entryText entry ++ ",\n".toList

theorem linesText_append (entries : List (String × Text)) (entry : String × Text)
    (entries' : List (String × Text)) :
    linesText (entries ++ entry :: entries') =
      precedingText entries ++ linesText (entry :: entries') := by
  induction entries with
  | nil => rfl
  | cons first entries ih =>
    rw [precedingText, List.flatMap_cons, List.append_assoc, List.append_assoc, ← precedingText,
      ← ih]
    cases entries <;> rfl

theorem avoids_precedingText {key : String} {entries : List (String × Text)} {rest : Text}
    (hkey : ∀ c ∈ key.toList, isPlain c = true) (hentries : ∀ entry ∈ entries, PlainEntry entry)
    (hne : key ∉ entries.map Prod.fst) : Avoids (quoted key) (precedingText entries) rest := by
  induction entries with
  | nil => exact avoids_nil
  | cons first entries ih =>
    rw [List.map_cons, List.mem_cons, not_or] at hne
    rw [List.forall_mem_cons] at hentries
    rw [precedingText, List.flatMap_cons, avoids_append]
    exact ⟨avoids_entryText hkey hentries.1 hne.1 (by decide), ih hentries.2 hne.2⟩

/-- The value of the first of some lines, with what follows it up to the end of the file. -/
theorem linesText_cons {entry : String × Text} (entries : List (String × Text))
    (hentry : PlainEntry entry) : ∃ after,
      linesText (entry :: entries) ++ "\x7d\n".toList = entryText entry ++ after ∧
        trim (valuePart (" ".toList ++ (entry.2 ++ after))) = entry.2 := by
  have hcomma := notMem_of_isPlain hentry.2 (c := ',') (by decide)
  have hbrace := notMem_of_isPlain hentry.2 (c := '}') (by decide)
  have htrim : ∀ blanks : Text, (∀ c ∈ blanks, c.isWhitespace = true) →
      trim (" ".toList ++ (entry.2 ++ blanks)) = entry.2 :=
    fun blanks => trim_append (List.all_iff_forall_prop.mp (by decide)) fun c hc =>
      isWhitespace_of_isPlain (hentry.2 c hc)
  cases entries with
  | nil =>
    refine ⟨"\n\x7d\n".toList, by rw [linesText, List.append_assoc]; rfl, ?_⟩
    have hpart : valuePart (" ".toList ++ (entry.2 ++ "\n\x7d\n".toList)) =
        " ".toList ++ (entry.2 ++ "\n".toList) := by
      have hfree : '}' ∉ " ".toList ++ (entry.2 ++ "\n".toList) := by simp [hbrace]
      rw [valuePart, if_neg (by simp [hcomma]), ← takeWhile_ne_append_cons hfree "\n".toList]
      simp
    rw [hpart]
    exact htrim _ (List.all_iff_forall_prop.mp (by decide))
  | cons second entries =>
    refine ⟨",\n".toList ++ (linesText (second :: entries) ++ "\x7d\n".toList),
      by simp only [linesText, List.append_assoc], ?_⟩
    have hpart : valuePart (" ".toList ++ (entry.2 ++
        (",\n".toList ++ (linesText (second :: entries) ++ "\x7d\n".toList)))) =
        " ".toList ++ (entry.2 ++ []) := by
      have hfree : ',' ∉ " ".toList ++ entry.2 := by simp [hcomma]
      rw [valuePart, if_pos (by simp), List.append_nil, ← takeWhile_ne_append_cons hfree
        ("\n".toList ++ (linesText (second :: entries) ++ "\x7d\n".toList))]
      simp
    rw [hpart]
    exact htrim _ (List.all_iff_forall_prop.mp (by decide))

/-- Each entry of a saved list of entries is found again. -/
theorem extractValue_linesText {entries : List (String × Text)}
    (hplain : ∀ entry ∈ entries, PlainEntry entry) (hkeys : (entries.map Prod.fst).Nodup) :
    ∀ entry ∈ entries, extractValue
      ("\x7b\n".toList ++ (linesText entries ++ "\x7d\n".toList)) entry.1 = entry.2 := by
  intro entry hmem
  obtain ⟨preceding, others, rfl⟩ := List.append_of_mem hmem
  obtain ⟨after, hafter, hvalue⟩ := linesText_cons others (hplain _ hmem)
  have hkey := (hplain _ hmem).1
  have hne : entry.1 ∉ preceding.map Prod.fst := by
    rw [List.map_append, List.map_cons, List.nodup_middle, List.nodup_cons] at hkeys
    exact fun h => hkeys.1 (List.mem_append_left _ h)
  have htext : "\x7b\n".toList ++ (linesText (preceding ++ entry :: others) ++ "\x7d\n".toList) =
      ("\x7b\n".toList ++ (precedingText preceding ++ "  ".toList)) ++
        (quoted entry.1 ++ ([] ++ ':' :: (" ".toList ++ (entry.2 ++ after)))) := by
    rw [linesText_append, List.append_assoc, hafter, entryText]
    simp
  rw [htext, extractValue_eq _ (by simp [quoted, notMem_of_isPlain hkey (c := ':') (by decide)]),
    hvalue]
  rw [quoted, avoids_append, avoids_append]
  refine ⟨avoids_of_notMem (by decide), ?_, avoids_of_notMem (by decide)⟩
  exact avoids_precedingText hkey (fun e he => hplain e (List.mem_append_left _ he)) hne

theorem slash_notMem_linesText {entries : List (String × Text)}
    (hplain : ∀ entry ∈ entries, PlainEntry entry) : '/' ∉ linesText entries := by
  have hentry : ∀ entry ∈ entries, '/' ∉ entryText entry := by
    intro entry hmem
    simp [entryText, quoted, notMem_of_isPlain (hplain entry hmem).1 (c := '/') (by decide),
      notMem_of_isPlain (hplain entry hmem).2 (c := '/') (by decide)]
  fun_induction linesText entries with
  | case1 => exact List.not_mem_nil
  | case2 entry => simpa using hentry
  | case3 entry entries hne ih =>
    rw [List.forall_mem_cons] at hplain hentry
    simp [hentry.1, ih hplain.2 hentry.2]

/-! ### Loading a saved configuration -/

theorem toNat_ofInt (n : ℤ) : (UInt64.ofInt n).toNat = (n % 2 ^ 64).toNat := by
  rw [UInt64.ofInt, UInt64.toNat_ofNat']
  exact Nat.mod_eq_of_lt (by omega)

theorem ofInt_natCast (n : ℕ) : UInt64.ofInt n = UInt64.ofNat n := by
  apply UInt64.toNat.inj
  rw [toNat_ofInt, UInt64.toNat_ofNat']
  omega

theorem stoull_numberText {n : ℕ} (h : n < 2 ^ 64) :
    stoull (trim (numberText n)) = some (UInt64.ofNat n) := by
  rw [stoull, leadingInteger_trim, numberText_eq, leadingInteger_of_numeral (numeral_toDigits n)]
  dsimp only
  rw [Int.natAbs_natCast, if_neg (Nat.not_le.mpr h), ofInt_natCast]

theorem parseUint32_numberText (n : UInt32) : parseUint32 (numberText n.toNat) = some n := by
  rw [parseUint32, stoull_numberText (n.toNat_lt.trans (by decide)), Option.map_some,
    UInt64.toUInt32_ofNat', UInt32.ofNat_toNat]

theorem parseSizeT_numberText (n : UInt64) : parseSizeT (numberText n.toNat) = some n := by
  rw [parseSizeT, stoull_numberText n.toNat_lt, UInt64.ofNat_toNat]

theorem parseUint16_numberText (n : UInt16) : parseUint16 (numberText n.toNat) = some n := by
  rw [parseUint16, stoull_numberText (n.toNat_lt.trans (by decide)), Option.map_some,
    UInt64.toUInt16_ofNat', UInt16.ofNat_toNat]

theorem parseBool_boolText (b : Bool) : parseBool (boolText b) = some b := by
  cases b <;> decide

theorem entries_keys_nodup (config : BrokerConfig) : (config.entries.map Prod.fst).Nodup := by
  simp only [entries, List.map_cons, List.map_nil]
  decide

theorem isPlain_of_mem_key {config : BrokerConfig} {key : String}
    (hkey : key ∈ config.entries.map Prod.fst) : ∀ c ∈ key.toList, isPlain c = true := by
  have hall : (config.entries.map Prod.fst).all (fun key => key.toList.all isPlain) = true := by
    simp only [entries, List.map_cons, List.map_nil]
    decide +kernel
  exact List.all_eq_true.mp (List.all_eq_true.mp hall key hkey)

theorem isPlain_of_mem_value {config : BrokerConfig} :
    ∀ entry ∈ config.entries, ∀ c ∈ entry.2, isPlain c = true := by
  have hnumber (n : ℕ) : ∀ c ∈ numberText n, isPlain c = true := isPlain_of_mem_numberText
  have hbool (b : Bool) : ∀ c ∈ boolText b, isPlain c = true := isPlain_of_mem_boolText
  simp only [entries, List.forall_mem_cons]
  exact ⟨hnumber _, hbool _, hbool _, hnumber _, hbool _, hnumber _, hnumber _, hnumber _,
    hbool _, hnumber _, hnumber _, hnumber _, hnumber _, hbool _, hnumber _, hnumber _, hbool _,
    hnumber _, hbool _, hbool _, hnumber _, hnumber _, hnumber _, hnumber _, hnumber _,
    fun _ h => absurd h List.not_mem_nil⟩

theorem plainEntry_of_mem_entries {config : BrokerConfig} :
    ∀ entry ∈ config.entries, PlainEntry entry :=
  fun entry hmem =>
    ⟨isPlain_of_mem_key (List.mem_map_of_mem hmem), isPlain_of_mem_value entry hmem⟩

/-- There is no comment in a saved configuration. -/
theorem removeComments_saveToFile (config : BrokerConfig) :
    removeComments (saveToFile config) = saveToFile config := by
  refine removeComments_of_notMem ?_
  have hlines : '/' ∉ linesText config.entries := slash_notMem_linesText plainEntry_of_mem_entries
  simp [saveToFile, hlines]

/-- A saved configuration loads back, whatever it is loaded into. -/
theorem loadFromFile_saveToFile (config config' : BrokerConfig) :
    loadFromFile (some (saveToFile config)) config' = (config, true) := by
  have hvalues : ∀ entry ∈ config.entries, extractValue (saveToFile config) entry.1 = entry.2 :=
    extractValue_linesText plainEntry_of_mem_entries config.entries_keys_nodup
  simp only [entries, List.forall_mem_cons] at hvalues
  rw [loadFromFile, removeComments_saveToFile]
  simp only [loadFields, getVal, hvalues, if_neg (numberText_ne_nil _), parseUint16_numberText,
    parseUint32_numberText, parseSizeT_numberText, parseBool_boolText, Option.getD_some]

end BrokerConfig

end ProtoMsgQueue
