import TokenWeasel.Library.Escaping
import TokenWeasel.Library.Separated
import TokenWeasel.Server.Routes

/-!
# Metrics (`twl-server/src/metrics.rs`)

The text that is served to a scraper, and what a scraper that reads it line by line finds.
-/

namespace TokenWeasel.Server.Metrics

open Library Store Routes

/-! ## Writing -/

def escapeLabelValue (v : Text) : Text :=
  ((v.replace '\\' "\\\\").replace '"' "\\\"").replace '\n' "\\n"

/-- `Display` of `f64`, which stays on its line. -/
structure FloatDisplay where
  display : Rat → Text
  oneLine : ∀ x, '\n' ∉ display x

/-- `Display` of `i64`. -/
def displayInt (n : Int) : Text := (if n < 0 then ['-'] else []) ++ Nat.toDigits 10 n.natAbs

def labelText (name : String) (value : Text) : Text :=
  name.toList ++ '=' :: '"' :: (escapeLabelValue value ++ ['"'])

/-- A metric without labels has no braces. -/
def sampleLine (metric : String) (labels : List (String × Text)) (value : Text) : Text :=
  metric.toList ++
    (if labels.isEmpty then []
    else
      '\x7b' :: ([','].intercalate (labels.map fun (name, value) ↦ labelText name value) ++
        ['\x7d'])) ++
    ' ' :: value

structure Heading where
  metric : String
  help : String
  kind : String

/-- A metric with the labels and the value of each of its samples. -/
structure Family extends Heading where
  samples : List (List (String × Text) × Text)

def Heading.comments (h : Heading) : List Text :=
  [("# HELP " ++ h.metric ++ " " ++ h.help).toList, ("# TYPE " ++ h.metric ++ " " ++ h.kind).toList]

def Family.lines (f : Family) : List Text :=
  f.comments ++ f.samples.map fun (labels, value) ↦ sampleLine f.metric labels value

/-- One sample a row, under the name of its model. -/
def perModel (metric help : String) (count : ModelStats → Int) (rows : List ModelStats) : Family where
  toHeading := { metric := metric, help := help, kind := "counter" }
  samples := rows.map fun r ↦ ([("model", r.model.toList)], displayInt (count r))

/-- `CARGO_PKG_VERSION`. -/
def cargoPkgVersion : String := "0.1.1"

def families (float : FloatDisplay) (pricing : Pricing) (rows : List ModelStats)
    (totalKwh : Rat) : List Family :=
  [{ toHeading := ⟨"twl_build_info", "Build information.", "gauge"⟩
     samples := [([("version", cargoPkgVersion.toList)], ['1'])] },
    perModel "twl_requests_total" "Proxied requests per model." (fun r ↦ r.requests) rows,
    perModel "twl_input_tokens_total" "Input/prompt tokens per model." (fun r ↦ r.inputTokens) rows,
    perModel "twl_output_tokens_total" "Output/completion tokens per model."
      (fun r ↦ r.outputTokens) rows,
    perModel "twl_cached_tokens_total" "Cached prompt tokens per model."
      (fun r ↦ r.cachedTokens) rows,
    { toHeading := ⟨"twl_estimated_cost_total",
        "Estimated cost per model, from the configured price table.", "counter"⟩
      samples := rows.map fun r ↦
        let cost := pricing.cost r.model r.inputTokens r.outputTokens r.cachedTokens
        ([("model", r.model.toList), ("currency", pricing.currency.toList)],
          float.display cost.total) },
    { toHeading := ⟨"twl_energy_kwh_total", "Estimated GPU energy consumed, in kWh.", "counter"⟩
      samples := [([], float.display totalKwh)] }]

/-- Every line is a `writeln!`. -/
def renderMetrics (float : FloatDisplay) (pricing : Pricing) (rows : List ModelStats)
    (totalKwh : Rat) : Text :=
  ((families float pricing rows totalKwh).flatMap Family.lines).flatMap (· ++ ['\n'])

/-! ## The endpoint -/

inductive Response where
  | metrics (body : Text)
  | problem (status : Nat) (title detail : String)
  | dbError (e : DbError)

/-- The digests of the tokens are compared, not the tokens. -/
def authorized (sha256Hex : Text → String) (expected : Text) (headers : HeaderMap) : Bool :=
  match ((headers.get "authorization").bind toStr).bind Auth.parseBearerCredentials with
  | some token => sha256Hex token = sha256Hex expected
  | none => false

/-- All of the usage and all of the energy, for who presents the token. -/
def metricsHandler (sha256Hex : Text → String) (float : FloatDisplay) (metricsToken : Option Text)
    (pricing : Pricing) (order : RowOrder) (clock : LocalTime) (tables : Tables)
    (headers : HeaderMap) : Response :=
  match metricsToken with
  -- without a token the endpoint is not there
  | none => .problem 404 "Not Found" "not found"
  | some expected =>
    if ¬ authorized sha256Hex expected headers then
      .problem 401 "Unauthorized" "invalid or missing metrics token"
    else
      match stats 0 tables.toDatabase with
      | .error e => .dbError e
      | .ok rows =>
        match dailyEnergy clock.date 0 tables with
        | .error e => .dbError e
        | .ok days =>
          .metrics (renderMetrics float pricing (order.models.reorder rows)
            (days.map DailyEnergy.kwh).sum)

/-! ## Reading -/

/-- The escapes of a label value in the text exposition format. -/
def labelEscaping : Escaping Char where
  mark := '\\'
  letter c := if c = '\\' then some '\\' else if c = '"' then some '"'
    else if c = '\n' then some 'n' else none
  meaning c := if c = '\\' then some '\\' else if c = '"' then some '"'
    else if c = 'n' then some '\n' else none
  letter_mark := rfl
  meaning_letter := by
    intro c d h
    grind

structure Sample where
  metric : Text
  labels : List (Text × Text)
  value : Text
  deriving DecidableEq, Repr

/-- A name, an equals sign and a quoted value. -/
def readLabel (text : Text) : Option ((Text × Text) × Text) :=
  match text.span (· ≠ '=') with
  | (name, '=' :: '"' :: rest) =>
    (labelEscaping.readQuoted '"' rest).map fun (value, rest) ↦ ((name, value), rest)
  | _ => none

/-- Labels with commas between them, up to the brace behind them. -/
def readLabels : Nat → Text → Option (List (Text × Text) × Text)
  | 0, _ => none
  | fuel + 1, text =>
    match readLabel text with
    | some (label, ',' :: rest) =>
      (readLabels fuel rest).map fun (labels, rest) ↦ (label :: labels, rest)
    | some (label, '\x7d' :: rest) => some ([label], rest)
    | _ => none

def readValue (metric : Text) (labels : List (Text × Text)) : Text → Option Sample
  | ' ' :: value => some { metric := metric, labels := labels, value := value }
  | _ => none

/-- A line that is neither a comment nor empty. -/
def parseSample (line : Text) : Option Sample :=
  if line.head? = some '#' then none
  else
    match line.span fun c ↦ c ≠ '\x7b' && c ≠ ' ' with
    | (metric, '\x7b' :: rest) =>
      (readLabels rest.length rest).bind fun (labels, rest) ↦ readValue metric labels rest
    | (metric, rest) => readValue metric [] rest

/-! ## What is escaped -/

/-- The replacements one after the other escape each character once. -/
theorem escapeLabelValue_eq (v : Text) : escapeLabelValue v = labelEscaping.escape v := by
  unfold escapeLabelValue Text.replace Escaping.escape
  rw [List.flatMap_assoc, List.flatMap_assoc]
  apply List.flatMap_congr
  intro c _
  by_cases hmark : c = '\\'
  · rw [hmark]
    rfl
  · by_cases hquote : c = '"'
    · rw [hquote]
      rfl
    · by_cases hnewline : c = '\n'
      · rw [hnewline]
        rfl
      · simp [Escaping.escapeOne, labelEscaping, hmark, hquote, hnewline]

theorem newline_not_mem_escape (v : Text) : '\n' ∉ escapeLabelValue v := by
  rw [escapeLabelValue_eq]
  apply Escaping.not_mem_escape
  · rfl
  · decide
  · intro b
    simp only [labelEscaping]
    grind

theorem readLabel_labelText {name : String} (hname : '=' ∉ name.toList) (value rest : Text) :
    readLabel (labelText name value ++ rest) = some ((name.toList, value), rest) := by
  have hspan : (labelText name value ++ rest).span (· ≠ '=') =
      (name.toList, '=' :: '"' :: (labelEscaping.escape value ++ '"' :: rest)) := by
    have htext : labelText name value ++ rest =
        name.toList ++ '=' :: '"' :: (labelEscaping.escape value ++ '"' :: rest) := by
      simp [labelText, escapeLabelValue_eq]
    rw [htext]
    apply Text.span_append
    · intro c hc
      exact decide_eq_true fun heq ↦ hname (heq ▸ hc)
    · intro c hc
      rw [← Option.some.inj hc]
      rfl
  have hquoted : labelEscaping.readQuoted '"' (labelEscaping.escape value ++ '"' :: rest) =
      some (value, rest) := labelEscaping.readQuoted_escape rfl (by decide) value rest
  unfold readLabel
  rw [hspan]
  show (labelEscaping.readQuoted '"' (labelEscaping.escape value ++ '"' :: rest)).map _ = _
  rw [hquoted]
  rfl

/-- The labels of a sample as its line has them. -/
def labelsText (labels : List (String × Text)) : Text :=
  [','].intercalate (labels.map fun (name, value) ↦ labelText name value)

theorem readLabels_labelsText {labels : List (String × Text)} (hne : labels ≠ [])
    (hnames : ∀ label ∈ labels, '=' ∉ label.1.toList) {fuel : Nat} (hfuel : labels.length ≤ fuel)
    (rest : Text) : readLabels fuel (labelsText labels ++ '\x7d' :: rest) =
      some (labels.map fun (name, value) ↦ (name.toList, value), rest) := by
  induction labels generalizing fuel with
  | nil => exact absurd rfl hne
  | cons label labels ih =>
      cases fuel with
      | zero => exact absurd hfuel (by simp)
      | succ fuel =>
          have hread := readLabel_labelText (hnames label List.mem_cons_self) label.2
          cases labels with
          | nil =>
              have htext : labelsText [label] = labelText label.1 label.2 :=
                List.intercalate_singleton
              rw [htext, readLabels, hread]
              rfl
          | cons next labels =>
              have htext : labelsText (label :: next :: labels) ++ '\x7d' :: rest =
                  labelText label.1 label.2 ++
                    ',' :: (labelsText (next :: labels) ++ '\x7d' :: rest) := by
                simp [labelsText, List.intercalate_cons_cons]
              have hmore := ih (List.cons_ne_nil next labels)
                (fun other hother ↦ hnames other (List.mem_cons_of_mem label hother))
                (Nat.le_of_succ_le_succ hfuel)
              rw [htext, readLabels, hread]
              show (readLabels fuel (labelsText (next :: labels) ++ '\x7d' :: rest)).map _ = _
              rw [hmore]
              rfl

theorem length_le_labelsText (labels : List (String × Text)) :
    labels.length ≤ (labelsText labels).length := by
  induction labels with
  | nil => exact Nat.zero_le _
  | cons label labels ih =>
      have hone : 1 ≤ (labelText label.1 label.2).length := by
        simp [labelText]
        omega
      cases labels with
      | nil =>
          have htext : labelsText [label] = labelText label.1 label.2 :=
            List.intercalate_singleton
          rw [htext]
          exact hone
      | cons next labels =>
          have htext : labelsText (label :: next :: labels) =
              labelText label.1 label.2 ++ [','] ++ labelsText (next :: labels) :=
            List.intercalate_cons_cons
          rw [htext, List.length_append, List.length_append, List.length_cons]
          omega

/-! ## Lines and samples -/

/-- A name that a scraper takes as a whole. -/
def isMetricName (name : Text) : Bool :=
  name.head? ≠ some '#' && name.all fun c ↦ c ≠ '\x7b' && c ≠ ' ' && c ≠ '\n'

def sample (metric : String) (labels : List (String × Text)) (value : Text) : Sample where
  metric := metric.toList
  labels := labels.map fun (name, value) ↦ (name.toList, value)
  value := value

theorem sampleLine_nil (metric : String) (value : Text) :
    sampleLine metric [] value = metric.toList ++ ' ' :: value := by
  simp [sampleLine]

theorem sampleLine_of_ne_nil {labels : List (String × Text)} (hne : labels ≠ [])
    (metric : String) (value : Text) : sampleLine metric labels value =
      metric.toList ++ '\x7b' :: (labelsText labels ++ '\x7d' :: ' ' :: value) := by
  rw [sampleLine, if_neg (by simpa using hne)]
  simp [labelsText]

/-- A line reads back by what stands behind the name. -/
theorem parseSample_append {metric : String} (hmetric : isMetricName metric.toList = true)
    {c : Char} (hc : c = ' ' ∨ c = '\x7b') (rest : Text) :
    (metric.toList ++ c :: rest).head? ≠ some '#' ∧
      (metric.toList ++ c :: rest).span (fun c ↦ c ≠ '\x7b' && c ≠ ' ') =
        (metric.toList, c :: rest) := by
  rw [isMetricName, Bool.and_eq_true, decide_eq_true_eq, List.all_eq_true] at hmetric
  constructor
  · cases hname : metric.toList with
    | nil =>
        rcases hc with rfl | rfl
        · simp
        · simp
    | cons first name =>
        rw [hname] at hmetric
        exact hmetric.1
  · apply Text.span_append
    · intro d hd
      have hall := hmetric.2 d hd
      rw [Bool.and_eq_true] at hall
      exact hall.1
    · intro d hd
      rw [← Option.some.inj hd]
      rcases hc with rfl | rfl
      · rfl
      · rfl

/-- The line of a sample reads back as the sample. -/
theorem parseSample_sampleLine {metric : String} (hmetric : isMetricName metric.toList = true)
    {labels : List (String × Text)} (hnames : ∀ label ∈ labels, '=' ∉ label.1.toList)
    (value : Text) :
    parseSample (sampleLine metric labels value) = some (sample metric labels value) := by
  by_cases hne : labels = []
  · rcases parseSample_append hmetric (Or.inl rfl) value with ⟨hhead, hspan⟩
    rw [hne, sampleLine_nil, parseSample, if_neg hhead, hspan]
    rfl
  · let rest := labelsText labels ++ '\x7d' :: ' ' :: value
    have hfuel : labels.length ≤ rest.length := by
      rw [List.length_append]
      exact Nat.le_add_right_of_le (length_le_labelsText labels)
    have hread := readLabels_labelsText hne hnames hfuel (' ' :: value)
    rcases parseSample_append hmetric (Or.inr rfl) rest with ⟨hhead, hspan⟩
    rw [sampleLine_of_ne_nil hne, parseSample, if_neg hhead, hspan]
    show (readLabels rest.length rest).bind _ = _
    rw [hread]
    rfl

/-! ## The body -/

def Heading.isWellFormed (h : Heading) : Bool :=
  isMetricName h.metric.toList && !h.help.toList.contains '\n' && !h.kind.toList.contains '\n'

/-- A metric whose samples stay on their lines. -/
structure Family.WellFormed (f : Family) : Prop where
  heading : f.toHeading.isWellFormed = true
  names : ∀ s ∈ f.samples, ∀ label ∈ s.1, '=' ∉ label.1.toList ∧ '\n' ∉ label.1.toList
  values : ∀ s ∈ f.samples, '\n' ∉ s.2

def Family.read (f : Family) : List Sample :=
  f.samples.map fun (labels, value) ↦ sample f.metric labels value

theorem Family.WellFormed.metric {f : Family} (h : f.WellFormed) :
    isMetricName f.metric.toList = true := by
  have hheading := h.heading
  rw [Heading.isWellFormed, Bool.and_eq_true, Bool.and_eq_true] at hheading
  exact hheading.1.1

theorem newline_not_mem_metric {metric : String} (h : isMetricName metric.toList = true) :
    '\n' ∉ metric.toList := by
  intro hmem
  rw [isMetricName, Bool.and_eq_true, List.all_eq_true] at h
  exact absurd (h.2 '\n' hmem) (by decide)

theorem newline_not_mem_comments {h : Heading} (hh : h.isWellFormed = true) :
    ∀ line ∈ h.comments, '\n' ∉ line := by
  rw [Heading.isWellFormed, Bool.and_eq_true, Bool.and_eq_true] at hh
  rcases hh with ⟨⟨hmetric, hhelp⟩, hkind⟩
  have hname := newline_not_mem_metric hmetric
  have hhelp : '\n' ∉ h.help.toList := by simpa using hhelp
  have hkind : '\n' ∉ h.kind.toList := by simpa using hkind
  intro line hline
  rw [Heading.comments, List.mem_cons, List.mem_singleton] at hline
  rcases hline with rfl | rfl
  · simp [hname, hhelp]
  · simp [hname, hkind]

theorem newline_not_mem_labelsText {labels : List (String × Text)}
    (h : ∀ label ∈ labels, '\n' ∉ label.1.toList) : '\n' ∉ labelsText labels := by
  intro hmem
  rcases mem_intercalate hmem with hsep | ⟨text, htext, hin⟩
  · exact absurd hsep (by decide)
  · rcases List.mem_map.mp htext with ⟨label, hlabel, rfl⟩
    have hname := h label hlabel
    have hvalue := newline_not_mem_escape label.2
    simp [labelText, hname, hvalue] at hin

theorem newline_not_mem_sampleLine {metric : String} (hmetric : isMetricName metric.toList = true)
    {labels : List (String × Text)} (hnames : ∀ label ∈ labels, '\n' ∉ label.1.toList)
    {value : Text} (hvalue : '\n' ∉ value) : '\n' ∉ sampleLine metric labels value := by
  have hname := newline_not_mem_metric hmetric
  by_cases hne : labels = []
  · rw [hne, sampleLine_nil]
    simp [hname, hvalue]
  · rw [sampleLine_of_ne_nil hne]
    simp [hname, hvalue, newline_not_mem_labelsText hnames]

theorem Family.WellFormed.oneLine {f : Family} (h : f.WellFormed) :
    ∀ line ∈ f.lines, '\n' ∉ line := by
  intro line hline
  cases List.mem_append.mp hline with
  | inl hcomment => exact newline_not_mem_comments h.heading line hcomment
  | inr hsample =>
      rcases List.mem_map.mp hsample with ⟨s, hs, rfl⟩
      exact newline_not_mem_sampleLine h.metric
        (fun label hlabel ↦ (h.names s hs label hlabel).2) (h.values s hs)

theorem parseSample_comments (h : Heading) : ∀ line ∈ h.comments, parseSample line = none := by
  intro line hline
  rw [Heading.comments, List.mem_cons, List.mem_singleton] at hline
  apply if_pos
  rcases hline with rfl | rfl
  · simp
  · simp

/-- The samples of a metric are what its lines hold beside the comments. -/
theorem Family.WellFormed.reads {f : Family} (h : f.WellFormed) :
    f.lines.filterMap parseSample = f.read ∧
      f.lines.filter (fun line ↦ (parseSample line).isNone) = f.comments := by
  have hcomments := parseSample_comments f.toHeading
  have hsamples : ∀ s ∈ f.samples, parseSample (sampleLine f.metric s.1 s.2) =
      some (sample f.metric s.1 s.2) := fun s hs ↦
    parseSample_sampleLine h.metric (fun label hlabel ↦ (h.names s hs label hlabel).1) s.2
  unfold Family.lines Family.read
  constructor
  · rw [List.filterMap_append, List.filterMap_eq_nil_iff.mpr hcomments, List.nil_append,
      List.filterMap_map]
    exact (List.filterMap_congr hsamples).trans (congrFun List.filterMap_eq_map f.samples)
  · rw [List.filter_append, List.filter_eq_self.mpr, List.filter_map, List.filter_eq_nil_iff.mpr,
      List.map_nil, List.append_nil]
    · intro s hs
      rw [Function.comp_apply, hsamples s hs]
      exact Bool.false_ne_true
    · intro line hline
      rw [hcomments line hline]
      rfl

theorem splitOn_lines {lines : List Text} (h : ∀ line ∈ lines, '\n' ∉ line) :
    (lines.flatMap (· ++ ['\n'])).splitOn '\n' = lines ++ [[]] := by
  have hjoin : lines.flatMap (· ++ ['\n']) = ['\n'].intercalate (lines ++ [[]]) := by
    induction lines with
    | nil => rfl
    | cons line lines ih =>
        have hmore := ih fun other hother ↦ h other (List.mem_cons_of_mem line hother)
        rw [List.flatMap_cons, hmore, List.cons_append,
          List.intercalate_cons_of_ne_nil (by simp)]
  rw [hjoin]
  apply List.splitOn_intercalate
  · intro line hline
    cases List.mem_append.mp hline with
    | inl hmem => exact h line hmem
    | inr hlast => rw [List.mem_singleton.mp hlast]; exact List.not_mem_nil
  · simp

theorem newline_not_mem_displayInt (n : Int) : '\n' ∉ displayInt n := by
  intro hmem
  cases List.mem_append.mp hmem with
  | inl hsign =>
      split at hsign
      · exact absurd hsign (by decide)
      · exact absurd hsign List.not_mem_nil
  | inr hdigit =>
      have hdigits := isDigit_of_mem_toDigits (by decide) (by decide) n.natAbs '\n' hdigit
      exact absurd hdigits (by decide)

theorem label_names : ('=' ∉ "model".toList ∧ '\n' ∉ "model".toList) ∧
    ('=' ∉ "currency".toList ∧ '\n' ∉ "currency".toList) ∧
    ('=' ∉ "version".toList ∧ '\n' ∉ "version".toList) := by
  decide

theorem perModel_wellFormed {metric help : String} {count : ModelStats → Int}
    {rows : List ModelStats} (h : Heading.isWellFormed ⟨metric, help, "counter"⟩ = true) :
    (perModel metric help count rows).WellFormed where
  heading := h
  names s hs label hlabel := by
    rcases List.mem_map.mp hs with ⟨r, -, rfl⟩
    rw [List.mem_singleton.mp hlabel]
    exact label_names.1
  values s hs := by
    rcases List.mem_map.mp hs with ⟨r, -, rfl⟩
    exact newline_not_mem_displayInt (count r)

theorem families_wellFormed (float : FloatDisplay) (pricing : Pricing) (rows : List ModelStats)
    (totalKwh : Rat) : ∀ f ∈ families float pricing rows totalKwh, f.WellFormed := by
  have hcost : Heading.isWellFormed ⟨"twl_estimated_cost_total",
      "Estimated cost per model, from the configured price table.", "counter"⟩ = true := by
    decide +kernel
  have henergy : Heading.isWellFormed ⟨"twl_energy_kwh_total",
      "Estimated GPU energy consumed, in kWh.", "counter"⟩ = true := by
    decide +kernel
  intro f hf
  simp only [families, List.mem_cons, List.not_mem_nil, or_false] at hf
  rcases hf with rfl | rfl | rfl | rfl | rfl | rfl | rfl
  · refine ⟨by decide +kernel, fun s hs label hlabel ↦ ?_, fun s hs ↦ ?_⟩
    · rw [List.mem_singleton.mp hs] at hlabel
      rw [List.mem_singleton.mp hlabel]
      exact label_names.2.2
    · rw [List.mem_singleton.mp hs]
      decide
  · exact perModel_wellFormed (by decide +kernel)
  · exact perModel_wellFormed (by decide +kernel)
  · exact perModel_wellFormed (by decide +kernel)
  · exact perModel_wellFormed (by decide +kernel)
  · refine ⟨hcost, fun s hs label hlabel ↦ ?_, fun s hs ↦ ?_⟩
    · rcases List.mem_map.mp hs with ⟨r, -, rfl⟩
      rw [List.mem_cons, List.mem_singleton] at hlabel
      rcases hlabel with rfl | rfl
      · exact label_names.1
      · exact label_names.2.1
    · rcases List.mem_map.mp hs with ⟨r, -, rfl⟩
      exact float.oneLine _
  · refine ⟨henergy, fun s hs label hlabel ↦ ?_, fun s hs ↦ ?_⟩
    · rw [List.mem_singleton.mp hs] at hlabel
      exact absurd hlabel List.not_mem_nil
    · rw [List.mem_singleton.mp hs]
      exact float.oneLine _

/-- The samples of a scrape. -/
def samples (float : FloatDisplay) (pricing : Pricing) (rows : List ModelStats)
    (totalKwh : Rat) : List Sample :=
  let ofModel (metric : String) (r : ModelStats) (value : Text) : Sample :=
    { metric := metric.toList, labels := [("model".toList, r.model.toList)], value := value }
  [{ metric := "twl_build_info".toList
     labels := [("version".toList, cargoPkgVersion.toList)], value := ['1'] }] ++
  rows.map (fun r ↦ ofModel "twl_requests_total" r (displayInt r.requests)) ++
  rows.map (fun r ↦ ofModel "twl_input_tokens_total" r (displayInt r.inputTokens)) ++
  rows.map (fun r ↦ ofModel "twl_output_tokens_total" r (displayInt r.outputTokens)) ++
  rows.map (fun r ↦ ofModel "twl_cached_tokens_total" r (displayInt r.cachedTokens)) ++
  rows.map (fun r ↦
    { metric := "twl_estimated_cost_total".toList
      labels := [("model".toList, r.model.toList), ("currency".toList, pricing.currency.toList)]
      value := float.display
        (pricing.cost r.model r.inputTokens r.outputTokens r.cachedTokens).total }) ++
  [{ metric := "twl_energy_kwh_total".toList, labels := [], value := float.display totalKwh }]

/-- The `HELP` and `TYPE` lines, whatever the rows are. -/
def fixedLines : List Text :=
  [(⟨"twl_build_info", "Build information.", "gauge"⟩ : Heading),
    ⟨"twl_requests_total", "Proxied requests per model.", "counter"⟩,
    ⟨"twl_input_tokens_total", "Input/prompt tokens per model.", "counter"⟩,
    ⟨"twl_output_tokens_total", "Output/completion tokens per model.", "counter"⟩,
    ⟨"twl_cached_tokens_total", "Cached prompt tokens per model.", "counter"⟩,
    ⟨"twl_estimated_cost_total", "Estimated cost per model, from the configured price table.",
      "counter"⟩,
    ⟨"twl_energy_kwh_total", "Estimated GPU energy consumed, in kWh.", "counter"⟩].flatMap
    Heading.comments

theorem families_read (float : FloatDisplay) (pricing : Pricing) (rows : List ModelStats)
    (totalKwh : Rat) :
    (families float pricing rows totalKwh).flatMap Family.read =
        samples float pricing rows totalKwh ∧
      (families float pricing rows totalKwh).flatMap (fun f ↦ f.comments) = fixedLines := by
  constructor
  · simp only [families, samples, List.flatMap_cons, List.flatMap_nil, Family.read, perModel,
      List.map_map, List.map_cons, List.map_nil, List.append_nil, List.append_assoc]
    rfl
  · rfl

/-- An escaped label value has no newline, and an odd number of backslashes before each of its
quotes, and reads back as it was.  So whatever the models and the currency are called, the lines of
the body are the comments and one line for each sample, which reads back as the sample. -/
theorem renderMetrics_samples :
    (∀ v : Text, '\n' ∉ escapeLabelValue v ∧
      (∀ before after, escapeLabelValue v = before ++ '"' :: after →
        Odd (before.reverse.takeWhile (· = '\\')).length) ∧
      labelEscaping.unescape (escapeLabelValue v) = some v) ∧
    ∀ (float : FloatDisplay) (pricing : Pricing) (rows : List ModelStats) (totalKwh : Rat),
      let lines := (renderMetrics float pricing rows totalKwh).splitOn '\n'
      lines.filterMap parseSample = samples float pricing rows totalKwh ∧
      lines.filter (fun line ↦ (parseSample line).isNone) = fixedLines ++ [[]] := by
  constructor
  · intro v
    refine ⟨newline_not_mem_escape v, fun before after h ↦ ?_, ?_⟩
    · rw [escapeLabelValue_eq] at h
      exact labelEscaping.odd_trailing_escape rfl (by decide) h
    · rw [escapeLabelValue_eq]
      exact labelEscaping.unescape_escape v
  · intro float pricing rows totalKwh lines
    have hwell := families_wellFormed float pricing rows totalKwh
    have hlines : lines = (families float pricing rows totalKwh).flatMap Family.lines ++ [[]] := by
      apply splitOn_lines
      intro line hline
      rcases List.mem_flatMap.mp hline with ⟨f, hf, hmem⟩
      exact (hwell f hf).oneLine line hmem
    have hread := families_read float pricing rows totalKwh
    rw [hlines, List.filterMap_append, List.filter_append, ← hread.1, ← hread.2,
      List.filterMap_flatMap, List.filter_flatMap]
    constructor
    · have hall : (families float pricing rows totalKwh).flatMap
          (fun f ↦ f.lines.filterMap parseSample) =
            (families float pricing rows totalKwh).flatMap Family.read :=
        List.flatMap_congr fun f hf ↦ (hwell f hf).reads.1
      rw [hall]
      exact List.append_nil _
    · have hall : (families float pricing rows totalKwh).flatMap
          (fun f ↦ f.lines.filter fun line ↦ (parseSample line).isNone) =
            (families float pricing rows totalKwh).flatMap fun f ↦ f.comments :=
        List.flatMap_congr fun f hf ↦ (hwell f hf).reads.2
      rw [hall]
      rfl

end TokenWeasel.Server.Metrics
