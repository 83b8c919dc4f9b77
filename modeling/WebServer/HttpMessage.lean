import Mathlib.Data.List.Basic

/-! HTTP/1.1 response messages as bytes. A message is a status line and header fields, each on a line of
its own that CRLF ends, an empty line, and a body. What a renderer puts on one line is what the parser
finds on one line. -/

namespace HttpMessage

abbrev Text := List UInt8

def crlf : Text := [13, 10]

/-- `HTTP/1.1` and a space. -/
def protocol : Text := [72, 84, 84, 80, 47, 49, 46, 49, 32]

/-- The lines up to the first empty line, and what follows it. The list before the text is what has been
read of the first line. -/
def headLines : Text → Text → Option (List Text × Text)
  | [], 13 :: 10 :: rest => some ([], rest)
  | line, 13 :: 10 :: rest => (headLines [] rest).map fun head => (line :: head.1, head.2)
  | line, b :: rest => headLines (line ++ [b]) rest
  | _, [] => none

/-- The lines, each ended by CRLF, and an empty line. -/
def renderLines (lines : List Text) : Text := lines.flatMap (· ++ crlf) ++ crlf

theorem headLines_empty (body : Text) : headLines [] (crlf ++ body) = some ([], body) := rfl

theorem headLines_end {line : Text} (hline : line ≠ []) (rest : Text) :
    headLines line (crlf ++ rest) = (headLines [] rest).map fun head => (line :: head.1, head.2) := by
  cases line with
  | nil => exact absurd rfl hline
  | cons b line => rfl

theorem headLines_cons {b : UInt8} {rest : Text} (hb : ∀ t, b = 13 → rest = 10 :: t → False) (line : Text) :
    headLines line (b :: rest) = headLines (line ++ [b]) rest := by
  rw [headLines.eq_def]
  split <;> simp_all

/-- A part of a line without a carriage return is read as it is. -/
theorem headLines_append {part : Text} (hpart : 13 ∉ part) (line rest : Text) :
    headLines line (part ++ rest) = headLines (line ++ part) rest := by
  induction part generalizing line with
  | nil => rw [List.nil_append, List.append_nil]
  | cons b part ih =>
      rw [List.mem_cons, not_or] at hpart
      rw [List.cons_append, headLines_cons (fun _ hb _ => hpart.1 hb.symm), ih hpart.2, List.append_assoc,
        List.singleton_append]

/-- Lines that are rendered are read back. -/
theorem headLines_render {lines : List Text} (hlines : ∀ line ∈ lines, line ≠ [] ∧ 13 ∉ line)
    (body : Text) : headLines [] (renderLines lines ++ body) = some (lines, body) := by
  induction lines with
  | nil => exact headLines_empty body
  | cons line lines ih =>
      obtain ⟨hline, hfree⟩ := hlines line List.mem_cons_self
      have hrest := ih fun l hl => hlines l (List.mem_cons_of_mem _ hl)
      rw [renderLines, List.flatMap_cons, List.append_assoc, List.append_assoc, List.append_assoc,
        headLines_append hfree, List.nil_append, headLines_end hline]
      rw [renderLines, List.append_assoc] at hrest
      rw [hrest]
      rfl

/-- The first line is read from the front of the text. -/
theorem prefix_headLines {line text body : Text} {l : Text} {lines : List Text}
    (h : headLines line text = some (l :: lines, body)) : l <+: line ++ text := by
  induction line, text using headLines.induct with
  | case1 rest => cases h
  | case2 line rest hne ih =>
      rw [show 13 :: 10 :: rest = crlf ++ rest from rfl, headLines_end (by simpa using hne)] at h
      obtain ⟨head, -, heq⟩ := Option.map_eq_some_iff.mp h
      cases heq
      exact List.prefix_append ..
  | case3 line b rest hne hne' ih =>
      rw [headLines_cons hne'] at h
      rw [List.append_cons]
      exact ih h
  | case4 line => simp [headLines] at h

/-- The name and the value on a line: what stands before and after its first colon and space. -/
def splitField : Text → Option (Text × Text)
  | 58 :: 32 :: value => some ([], value)
  | b :: rest => (splitField rest).map fun field => (b :: field.1, field.2)
  | [] => none

/-- A line of one field: its value is not followed by another name and value. -/
def field (line : Text) : Option (Text × Text) :=
  match splitField line with
  | some (name, value) => if name ≠ [] ∧ splitField value = none then some (name, value) else none
  | none => none

def renderField (field : Text × Text) : Text := field.1 ++ 58 :: 32 :: field.2

/-- The value of the first line with the name, whatever follows the value. -/
def fieldValue (lines : List Text) (name : Text) : Option Text :=
  (lines.findSome? fun line => (splitField line).filter fun field => field.1 == name).map Prod.snd

theorem splitField_render {name : Text} (hname : 58 ∉ name) (value : Text) :
    splitField (renderField (name, value)) = some (name, value) := by
  induction name with
  | nil => rfl
  | cons b name ih =>
      rw [List.mem_cons, not_or] at hname
      have hrest : splitField (name ++ 58 :: 32 :: value) = some (name, value) := ih hname.2
      rw [renderField, List.cons_append, splitField.eq_def]
      split
      · simp_all
      · simp_all
      · simp_all

def IsDigit (b : UInt8) : Prop := 48 ≤ b ∧ b ≤ 57

instance (b : UInt8) : Decidable (IsDigit b) := inferInstanceAs (Decidable (_ ∧ _))

/-- The status and the reason of a status line. -/
def statusLine (line : Text) : Option (Text × Text) :=
  if protocol <+: line then
    match line.drop protocol.length with
    | a :: b :: c :: 32 :: reason =>
        if IsDigit a ∧ IsDigit b ∧ IsDigit c then some ([a, b, c], reason) else none
    | _ => none
  else none

structure Response where
  status : Text
  reason : Text
  fields : List (Text × Text)
  body : Text
  deriving DecidableEq

/-- A line without line ends inside it. -/
def OneLine (line : Text) : Prop := 13 ∉ line ∧ 10 ∉ line

instance (line : Text) : Decidable (OneLine line) := inferInstanceAs (Decidable (_ ∧ _))

theorem OneLine.append {s t : Text} (hs : OneLine s) (ht : OneLine t) : OneLine (s ++ t) :=
  ⟨fun h => (List.mem_append.mp h).elim hs.1 ht.1, fun h => (List.mem_append.mp h).elim hs.2 ht.2⟩

theorem IsDigit.oneLine {b : UInt8} (hb : IsDigit b) : OneLine [b] := by
  constructor
  · rintro (_ | ⟨_, ⟨⟩⟩)
    exact absurd hb (by decide)
  · rintro (_ | ⟨_, ⟨⟩⟩)
    exact absurd hb (by decide)

/-- The parser of response messages. -/
def parse (text : Text) : Option Response :=
  match headLines [] text with
  | some (first :: lines, body) =>
      if ∀ line ∈ first :: lines, OneLine line then do
        let (status, reason) ← statusLine first
        let fields ← lines.mapM field
        return ⟨status, reason, fields, body⟩
      else none
  | _ => none

def renderStatus (status reason : Text) : Text := protocol ++ (status ++ 32 :: reason)

def Response.render (r : Response) : Text :=
  renderLines (renderStatus r.status r.reason :: r.fields.map renderField) ++ r.body

/-- What a response has to be to be rendered as one message. -/
structure Response.Valid (r : Response) : Prop where
  status : ∃ a b c, r.status = [a, b, c] ∧ IsDigit a ∧ IsDigit b ∧ IsDigit c
  reason : OneLine r.reason
  names : ∀ field ∈ r.fields, field.1 ≠ [] ∧ 58 ∉ field.1 ∧ OneLine field.1
  values : ∀ field ∈ r.fields, splitField field.2 = none ∧ OneLine field.2

theorem field_render {f : Text × Text} (hname : f.1 ≠ [] ∧ 58 ∉ f.1) (hvalue : splitField f.2 = none) :
    field (renderField f) = some f := by
  obtain ⟨name, value⟩ := f
  rw [field, splitField_render hname.2]
  exact if_pos ⟨hname.1, hvalue⟩

theorem mapM_field_render {fields : List (Text × Text)}
    (hfields : ∀ f ∈ fields, (f.1 ≠ [] ∧ 58 ∉ f.1) ∧ splitField f.2 = none) :
    (fields.map renderField).mapM field = some fields := by
  induction fields with
  | nil => rfl
  | cons f fields ih =>
      obtain ⟨hname, hvalue⟩ := hfields f List.mem_cons_self
      rw [List.map_cons, List.mapM_cons, field_render hname hvalue,
        ih fun g hg => hfields g (List.mem_cons_of_mem _ hg)]
      rfl

theorem statusLine_render {status : Text} (reason : Text)
    (hstatus : ∃ a b c, status = [a, b, c] ∧ IsDigit a ∧ IsDigit b ∧ IsDigit c) :
    statusLine (renderStatus status reason) = some (status, reason) := by
  obtain ⟨a, b, c, rfl, hdigits⟩ := hstatus
  rw [statusLine, renderStatus, if_pos (List.prefix_append ..), List.drop_left]
  exact if_pos hdigits

/-- The parser on lines that are lines. -/
theorem parse_renderLines {first : Text} {lines : List Text}
    (hlines : ∀ line ∈ first :: lines, line ≠ [] ∧ OneLine line) (body : Text) :
    parse (renderLines (first :: lines) ++ body) = (statusLine first).bind fun status =>
      (lines.mapM field).bind fun fields => some ⟨status.1, status.2, fields, body⟩ := by
  rw [parse, headLines_render fun line hline => ⟨(hlines line hline).1, (hlines line hline).2.1⟩]
  exact if_pos fun line hline => (hlines line hline).2

/-- **A response that is rendered is read back.** -/
theorem parse_render {r : Response} (h : r.Valid) : parse r.render = some r := by
  have hlines : ∀ line ∈ renderStatus r.status r.reason :: r.fields.map renderField,
      line ≠ [] ∧ OneLine line := by
    intro line hline
    rcases List.mem_cons.mp hline with rfl | hfield
    · obtain ⟨a, b, c, hstatus, ha, hb, hc⟩ := h.status
      have hdigits : OneLine r.status := hstatus ▸ (ha.oneLine.append hb.oneLine).append hc.oneLine
      have hreason : OneLine (32 :: r.reason) := OneLine.append (s := [32]) (by decide) h.reason
      exact ⟨List.cons_ne_nil _ _, OneLine.append (by decide) (hdigits.append hreason)⟩
    · obtain ⟨f, hf, rfl⟩ := List.mem_map.mp hfield
      have hvalue : OneLine (58 :: 32 :: f.2) := OneLine.append (s := [58, 32]) (by decide) (h.values f hf).2
      exact ⟨by simp [renderField], (h.names f hf).2.2.append hvalue⟩
  rw [Response.render, parse_renderLines hlines, statusLine_render _ h.status,
    mapM_field_render fun f hf => ⟨⟨(h.names f hf).1, (h.names f hf).2.1⟩, (h.values f hf).1⟩]
  rfl

/-- What is parsed begins with the protocol and a space. -/
theorem protocol_of_parse {text : Text} {r : Response} (h : parse text = some r) : protocol <+: text := by
  unfold parse at h
  split at h
  · rename_i first lines body hhead
    split_ifs at h
    obtain ⟨status, hstatus, -⟩ := Option.bind_eq_some_iff.mp h
    have hfirst : protocol <+: first := by
      unfold statusLine at hstatus
      split_ifs at hstatus with hprefix
      exact hprefix
    exact hfirst.trans (prefix_headLines hhead)
  · cases h

end HttpMessage
