import ProtoMsgQueue.Lib.JsonText
import ProtoMsgQueue.Mq.Broker

/-!
# Answers to administration commands as JSON

`HandleAdmin` puts the names of topics between quotes as they are, and writes the quotes of the
list whether or not there is a topic. `admin_json_iff` says when the answers are read back as they
are meant: the list if there is a topic and no name has a quote, a backslash or a control
character, the description of a topic if its name is not empty and has no such character.
-/

namespace ProtoMsgQueue

open UnorderedMap Json

namespace TopicManager

/-- The names of the topics a manager holds. -/
def heldNames (tm : TopicManager) : List TopicName := tm.topics.entries.map fun e => e.2.name

/-- A loop over the topics finds the held names, in some order. -/
theorem names_perm_heldNames (tm : TopicManager) (order : VisitOrder TopicName TopicInfo) :
    ((tm.getAllTopics order).map TopicInfo.name).Perm tm.heldNames := by
  have hkeys : (order.visit tm.topics).Perm tm.topics.keys :=
    (List.perm_ext_iff_of_nodup (order.nodup_visit _) tm.topics.keys_nodup).mpr fun k =>
      (order.mem_visit _ k).trans AList.mem_keys
  have hvalues : tm.topics.keys.filterMap tm.topics.lookup =
      tm.topics.entries.map fun e => e.2 := by
    rw [AList.keys, List.keys, List.filterMap_map, ← List.filterMap_eq_map]
    exact List.filterMap_congr fun e he => AList.mem_lookup_iff.mpr he
  have hnames : tm.heldNames =
      (tm.topics.keys.filterMap tm.topics.lookup).map TopicInfo.name := by
    rw [hvalues, List.map_map]
    rfl
  rw [hnames]
  exact (hkeys.filterMap _).map _

end TopicManager

/-- A name that can stand between quotes as it is. -/
def PlainName (name : TopicName) : Prop := ∀ c ∈ name.toList, needsEscape c = false

namespace Broker

/-! ### The list of the topics -/

theorem toList_joinNames {names : List String} (hne : names ≠ []) (rest : List Char) :
    '"' :: ((joinNames "\",\"" names).toList ++ '"' :: rest) =
      stringsText (names.map String.toList) ++ rest := by
  fun_induction joinNames "\",\"" names with
  | case1 => exact absurd rfl hne
  | case2 name => simp [stringsText]
  | case3 name names hnil ih =>
    obtain ⟨name', names, rfl⟩ := List.exists_cons_of_ne_nil (fun h => hnil h)
    rw [List.map_cons, List.map_cons, stringsText, ← List.map_cons, List.cons_append,
      List.append_assoc, List.cons_append, List.cons_append, ← ih (List.cons_ne_nil _ _)]
    simp

theorem toList_topicsJson {names : List String} (hne : names ≠ []) :
    (topicsJson names).toList =
      '\x7b' :: '"' :: ("topics".toList ++ '"' :: ':' :: '[' ::
        (stringsText (names.map String.toList) ++ ']' :: ['\x7d'])) := by
  rw [← toList_joinNames hne, topicsJson]
  simp

/-- The value that the list of some names stands for. -/
def topicsValue (names : List String) : Value :=
  .object [("topics".toList, .array ((names.map String.toList).map .string))]

/-- Plain names are read back. -/
theorem parse_topicsJson {names : List String} (hne : names ≠ [])
    (hplain : ∀ name ∈ names, PlainName name) :
    parse (topicsJson names).toList = some (topicsValue names) := by
  have hnil : names.map String.toList ≠ [] := mt List.map_eq_nil_iff.mp hne
  have hstrings : ∀ s ∈ names.map String.toList, ∀ c ∈ s, needsEscape c = false :=
    List.forall_mem_map.mpr hplain
  have hlength := length_stringsText hnil
  rw [List.length_map] at hlength
  obtain ⟨k, hk, hfuel⟩ : ∃ k, 2 * (topicsJson names).toList.length + 1 = k + 3 ∧
      names.length < k := by
    refine ⟨2 * (topicsJson names).toList.length - 2, ?_⟩
    rw [toList_topicsJson hne]
    simp only [List.length_cons, List.length_append, List.length_nil]
    omega
  rw [← List.length_map (f := String.toList)] at hfuel
  have harray := value_stringsText hnil hstrings ['\x7d'] hfuel
  have hname : ∀ c ∈ "topics".toList, needsEscape c = false :=
    List.all_iff_forall_prop.mp (by decide)
  rw [parse, hk, toList_topicsJson hne, value_brace, fields_brace hname harray]
  rfl

/-- If some names are read back from a list then they are plain. -/
theorem plainName_of_parse_topicsJson {names names' : List String} {v : Value} (hne : names ≠ [])
    (hparse : parse (topicsJson names).toList = some v) (hperm : names'.Perm names)
    (hfield : v.field "topics".toList = some (.array ((names'.map String.toList).map .string))) :
    ∀ name ∈ names, PlainName name := by
  have hnil : names.map String.toList ≠ [] := mt List.map_eq_nil_iff.mp hne
  have htext := minLength_le_of_parse hparse
  have hvalue := minLength_le_of_field hfield
  have hlength := length_stringsText hnil
  have hweight : weight (names'.map String.toList).flatten =
      weight (names.map String.toList).flatten :=
    (((hperm.map String.toList).flatten).map _).sum_eq
  have htopics : weight "topics".toList = 6 := by decide
  rw [toList_topicsJson hne] at htext
  simp only [List.length_cons, List.length_append, List.length_nil] at htext
  rw [Value.minLength, itemsLength_strings, hweight, List.length_map, hperm.length_eq,
    htopics] at hvalue
  rw [List.length_map] at hlength
  have htopics' : "topics".toList.length = 6 := by decide
  have hle : weight (names.map String.toList).flatten ≤
      (names.map String.toList).flatten.length := by omega
  intro name hname c hc
  exact weight_le_length_iff.mp hle c
    (List.mem_flatten.mpr ⟨_, List.mem_map_of_mem hname, hc⟩)

/-- The list of no topics is the list of the empty name. -/
theorem parse_topicsJson_nil : parse (topicsJson []).toList = some (topicsValue [""]) := by
  have hnil : topicsJson [] = topicsJson [""] := rfl
  rw [hnil]
  exact parse_topicsJson (List.cons_ne_nil _ _) (List.forall_mem_singleton.mpr nofun)

theorem field_topicsValue (names : List String) : (topicsValue names).field "topics".toList =
    some (.array ((names.map String.toList).map .string)) :=
  Value.field_cons _ _ nofun

/-! ### The description of a topic -/

theorem toList_topicInfoJson (topic : TopicName) (hasTopic : Bool) (subscribers groups : ℕ) :
    (topicInfoJson topic hasTopic subscribers groups).toList =
      '\x7b' :: '"' :: ("topic".toList ++ '"' :: ':' :: '"' :: (topic.toList ++ '"' :: ',' ::
        '"' :: ("exists".toList ++ '"' :: ':' ::
        ((if hasTopic then "true".toList else "false".toList) ++ ',' ::
        '"' :: ("subscribers".toList ++ '"' :: ':' :: (Nat.toDigits 10 subscribers ++ ',' ::
        '"' :: ("consumer_groups".toList ++ '"' :: ':' :: (Nat.toDigits 10 groups ++
        ['\x7d'])))))))) := by
  have hnumber : ∀ n : ℕ, (toString n).toList = Nat.toDigits 10 n := by
    intro n
    rw [Nat.toString_eq_repr, Nat.toList_repr]
  have hopen : "\x7b\"topic\":\"".toList =
      '\x7b' :: '"' :: ("topic".toList ++ '"' :: ':' :: ['"']) := by decide
  have hexists : ",\"exists\":".toList =
      ',' :: '"' :: ("exists".toList ++ '"' :: [':']) := by decide
  have hsubscribers : ",\"subscribers\":".toList =
      ',' :: '"' :: ("subscribers".toList ++ '"' :: [':']) := by decide
  have hgroups : ",\"consumer_groups\":".toList =
      ',' :: '"' :: ("consumer_groups".toList ++ '"' :: [':']) := by decide
  have hquote : "\"".toList = ['"'] := by decide
  have hclose : "\x7d".toList = ['\x7d'] := by decide
  unfold topicInfoJson
  simp only [String.toList_append, hopen, hexists, hsubscribers, hgroups, hquote, hclose, hnumber,
    List.append_assoc, List.cons_append, List.nil_append]
  cases hasTopic <;> rfl

/-- The value that the description of a topic stands for. -/
def topicInfoValue (topic : TopicName) (hasTopic : Bool) (subscribers groups : ℕ) : Value :=
  .object [("topic".toList, .string topic.toList), ("exists".toList, .bool hasTopic),
    ("subscribers".toList, .number (Nat.toDigits 10 subscribers)),
    ("consumer_groups".toList, .number (Nat.toDigits 10 groups))]

theorem parse_topicInfoJson {topic : TopicName} (h : PlainName topic) (hasTopic : Bool)
    (subscribers groups : ℕ) : parse (topicInfoJson topic hasTopic subscribers groups).toList =
      some (topicInfoValue topic hasTopic subscribers groups) := by
  obtain ⟨k, hk⟩ : ∃ k, 2 * (topicInfoJson topic hasTopic subscribers groups).toList.length + 1 =
      k + 6 := by
    refine ⟨2 * (topicInfoJson topic hasTopic subscribers groups).toList.length - 5, ?_⟩
    rw [toList_topicInfoJson]
    simp only [List.length_cons, List.length_append, List.length_nil]
    omega
  have hexists : ∀ rest fuel, value (fuel + 1)
      ((if hasTopic then "true".toList else "false".toList) ++ ',' :: rest) =
      some (.bool hasTopic, ',' :: rest) := by
    intro rest fuel
    rw [value]
    cases hasTopic <;> rfl
  rw [parse, hk, toList_topicInfoJson, value_brace,
    fields_comma (List.all_iff_forall_prop.mp (by decide)) (value_plain h _ _),
    fields_comma (List.all_iff_forall_prop.mp (by decide)) (hexists _ _),
    fields_comma (List.all_iff_forall_prop.mp (by decide)) (value_toDigits _ (Or.inl rfl) _ _),
    fields_brace (List.all_iff_forall_prop.mp (by decide)) (value_toDigits _ (Or.inr rfl) _ _)]
  rfl

theorem field_topicInfoValue (topic : TopicName) (hasTopic : Bool) (subscribers groups : ℕ) :
    (topicInfoValue topic hasTopic subscribers groups).field "topic".toList =
      some (.string topic.toList) := by
  refine Value.field_cons _ _ ?_
  simp only [List.forall_mem_cons]
  exact ⟨by decide, by decide, by decide, nofun⟩

/-- If a name is read back from a description then it is plain. -/
theorem plainName_of_parse_topicInfoJson {topic : TopicName} {hasTopic : Bool}
    {subscribers groups : ℕ} {v : Value}
    (hparse : parse (topicInfoJson topic hasTopic subscribers groups).toList = some v)
    (hfield : v.field "topic".toList = some (.string topic.toList)) : PlainName topic := by
  rw [toList_topicInfoJson] at hparse
  obtain ⟨fuel, s, rest, fs, hbody, rfl⟩ := parse_first_string
    (List.all_iff_forall_prop.mp (by decide)) hparse
  have hs : s = topic.toList := Value.string.inj (Value.eq_of_field_cons hfield)
  rw [hs] at hbody
  have hlength := length_stringBody hbody
  refine (stringBody_close hbody).elim (fun hclose => ?_) fun hclose => ?_
  · refine weight_le_length_iff.mp ?_
    rw [List.length_append, List.length_cons, List.length_cons, List.length_cons] at hlength
    omega
  · obtain ⟨s₁, h₁⟩ := hclose.1
    obtain ⟨s₂, h₂⟩ := hclose.2
    have hlast := (List.append_inj' (h₁.trans h₂.symm) rfl).2
    cases hlast

/-! ### The answers -/

/-- A handler answers with one frame, whose JSON text stands for a value of some kind. -/
def AnswersWith (result : BrokerResult) (connId : ConnectionId) (p : Value → Prop) : Prop :=
  ∃ resp v, result.sent = [⟨connId, .admin resp⟩] ∧ parse resp.jsonResult.toList = some v ∧ p v

theorem answersWith_respondAdmin {connId : ConnectionId} {success : Bool} {errorMsg json : String}
    {p : Value → Prop} : AnswersWith (.respondAdmin connId success errorMsg json) connId p ↔
      ∃ v, parse json.toList = some v ∧ p v := by
  constructor
  · rintro ⟨resp, v, hsent, h⟩
    cases hsent
    exact ⟨v, h⟩
  · rintro ⟨v, h⟩
    exact ⟨_, v, rfl, h⟩

variable {α : Type*}

/-- The topics are listed by the names that the topic manager holds. -/
def ListsTopics (b : Broker α) (connId : ConnectionId) (topic : TopicName) (env : HandlerEnv) :
    Prop :=
  AnswersWith (b.handleAdmin connId (some ⟨.listTopics, topic⟩) env).2 connId fun v =>
    ∃ names : List TopicName, names.Perm b.topicManager.heldNames ∧
      v.field "topics".toList = some (.array ((names.map String.toList).map .string))

/-- A topic is described under its name. -/
def DescribesTopic (b : Broker α) (connId : ConnectionId) (topic : TopicName) (env : HandlerEnv) :
    Prop :=
  AnswersWith (b.handleAdmin connId (some ⟨.getTopicInfo, topic⟩) env).2 connId fun v =>
    v.field "topic".toList = some (.string topic.toList)

theorem listsTopics_iff (b : Broker α) (connId : ConnectionId) (topic : TopicName)
    (env : HandlerEnv) : b.ListsTopics connId topic env ↔
      b.topicManager.heldNames ≠ [] ∧ ∀ name ∈ b.topicManager.heldNames, PlainName name := by
  have hperm := b.topicManager.names_perm_heldNames env.topicOrder
  rw [ListsTopics, handleAdmin]
  dsimp only
  rw [answersWith_respondAdmin]
  generalize (b.topicManager.getAllTopics env.topicOrder).map TopicInfo.name = held at hperm
  have hplain : (∀ name ∈ held, PlainName name) ↔
      ∀ name ∈ b.topicManager.heldNames, PlainName name :=
    forall_congr' fun name => imp_congr_left hperm.mem_iff
  rw [← hplain]
  constructor
  · rintro ⟨v, hparse, names, hnames, hfield⟩
    by_cases hnil : held = []
    · -- the list has the empty name, but no name is held
      rw [hnil, parse_topicsJson_nil] at hparse
      rw [← Option.some_inj.mp hparse, field_topicsValue] at hfield
      have hlength := congrArg List.length (Value.array.inj (Option.some_inj.mp hfield))
      have hzero := (hnames.trans (hnil ▸ hperm.symm)).length_eq
      rw [List.length_map, List.length_map, List.length_map, List.length_map, hzero] at hlength
      cases hlength
    · exact ⟨fun h => hnil (List.perm_nil.mp (h ▸ hperm)),
        plainName_of_parse_topicsJson hnil hparse (hnames.trans hperm.symm) hfield⟩
  · rintro ⟨hne, hheld⟩
    have hnil : held ≠ [] := by
      rintro rfl
      exact hne (List.nil_perm.mp hperm)
    exact ⟨_, parse_topicsJson hnil hheld, held, hperm, field_topicsValue held⟩

theorem describesTopic_iff (b : Broker α) (connId : ConnectionId) (topic : TopicName)
    (env : HandlerEnv) : b.DescribesTopic connId topic env ↔ topic ≠ "" ∧ PlainName topic := by
  rw [DescribesTopic, handleAdmin]
  dsimp only
  split
  · next hempty =>
    rw [answersWith_respondAdmin]
    refine iff_of_false ?_ fun h => h.1 hempty
    rintro ⟨v, hparse, -⟩
    have hnone : parse "".toList = none := rfl
    cases hnone.symm.trans hparse
  · next hne =>
    rw [answersWith_respondAdmin]
    constructor
    · rintro ⟨v, hparse, hfield⟩
      exact ⟨hne, plainName_of_parse_topicInfoJson hparse hfield⟩
    · rintro ⟨-, hplain⟩
      exact ⟨_, parse_topicInfoJson hplain _ _ _, field_topicInfoValue _ _ _ _⟩

/-- **Names as JSON.** The answer to the command that lists the topics is read back as the held
names exactly if there is a topic and all names are plain. The answer to the command that describes
a topic is read back with its name exactly if the name is plain and not empty. -/
theorem admin_json_iff (b : Broker α) (connId : ConnectionId) (topic : TopicName)
    (env : HandlerEnv) :
    (b.ListsTopics connId topic env ↔
      b.topicManager.heldNames ≠ [] ∧ ∀ name ∈ b.topicManager.heldNames, PlainName name) ∧
    (b.DescribesTopic connId topic env ↔ topic ≠ "" ∧ PlainName topic) :=
  ⟨listsTopics_iff b connId topic env, describesTopic_iff b connId topic env⟩

/-- A broker without topics lists one, and a name with a quote is not read back. -/
theorem not_names_as_json :
    ¬ (ofConfig {} { defaultBufferSize := 128 } 0 : Broker ℚ).ListsTopics 1 "" (.ofClocks 0 0) ∧
    ¬ (ofConfig {} { defaultBufferSize := 128 } 0 : Broker ℚ).DescribesTopic 1 "a\"b"
      (.ofClocks 0 0) := by
  rw [listsTopics_iff, describesTopic_iff]
  exact ⟨fun h => h.1 rfl, fun h => absurd (h.2 '"' (by decide)) (by decide)⟩

end Broker

end ProtoMsgQueue
