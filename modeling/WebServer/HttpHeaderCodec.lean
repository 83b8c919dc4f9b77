import WebServer.HttpHeaders

/-! Header lines and their encoding, and what `parseHeaders` makes of an encoded header: it never
decodes one. The scan stays in the state after the first colon, so the lines are not even read. -/

namespace WebServer

/-- A header line that the encoding keeps apart from its neighbours. -/
structure HeaderLine where
  key : Bytes
  value : Bytes
  key_nonempty : key ≠ []
  key_plain : ∀ b ∈ key, b ≠ colon ∧ b ≠ cr ∧ b ≠ lf
  value_nonempty : value ≠ []
  value_short : value.length ≤ 255
  value_plain : ∀ b ∈ value, b ≠ cr ∧ b ≠ lf
  value_start : value.head? ≠ some space

/-- The line as it is sent. -/
def HeaderLine.encode (l : HeaderLine) : Bytes := l.key ++ [colon, space] ++ l.value ++ [cr, lf]

/-- The lines and the empty line that ends them. -/
def encodeHeaders (lines : List HeaderLine) : Bytes := lines.flatMap HeaderLine.encode ++ [cr, lf]

/-- What the parser finds in the buffer: `parseURI` cuts the request line off before its line feed. -/
def headerBlock (lines : List HeaderLine) (body : Bytes) : Bytes := lf :: encodeHeaders lines ++ body

/-- The value a key is mapped to when later lines overwrite earlier ones. -/
def lastValue (lines : List HeaderLine) (key : Bytes) : Option Bytes :=
  (lines.reverse.find? (fun l => l.key == key)).map HeaderLine.value

/-- The parser has read the lines, all of them and nothing else. -/
def Decodes (lines : List HeaderLine) (body : Bytes) (result : Except Fault (HeaderState × HttpData)) :
    Prop :=
  ∃ h, result = .ok (.success, h) ∧ (∀ key, h.headers.find key = lastValue lines key) ∧
    h.inBuffer = body

/-- A connection whose header is about to be parsed. -/
def HttpData.atHeaders (h : HttpData) (inBuffer : Bytes) : HttpData :=
  { h with hState := .start, headers := [], inBuffer := inBuffer }

theorem keyStop_encode (key rest : Bytes) (hkey : ∀ b ∈ key, b ≠ colon ∧ b ≠ cr ∧ b ≠ lf)
    (hshort : (key ++ colon :: rest).length < 2 ^ 31) : keyStop (key ++ colon :: rest) = colonStop rest := by
  induction key with
  | nil => rw [List.nil_append, keyStop_cons hshort, if_pos rfl]
  | cons b key ih =>
      obtain ⟨hcolon, hcr, hlf⟩ := hkey b List.mem_cons_self
      rw [List.cons_append] at hshort ⊢
      rw [keyStop_cons hshort, if_neg hcolon, if_neg (not_or.mpr ⟨hlf, hcr⟩)]
      exact ih (fun b' hb' => hkey b' (List.mem_cons_of_mem _ hb')) (Nat.lt_of_succ_lt hshort)

/-- A header with a line in it is not rejected: the parser asks for more input for ever. -/
theorem headerStop_headerBlock (l : HeaderLine) (lines : List HeaderLine) (body : Bytes)
    (hshort : (headerBlock (l :: lines) body).length < 2 ^ 31) :
    headerStop .start (headerBlock (l :: lines) body) = none := by
  obtain ⟨key, value, hne, hkey, _, _, _, _⟩ := l
  cases key with
  | nil => exact absurd rfl hne
  | cons b key =>
      obtain ⟨_, hcr, hlf⟩ := hkey b List.mem_cons_self
      simp only [headerStop, headerBlock, encodeHeaders, HeaderLine.encode, List.flatMap_cons,
        List.cons_append, List.append_assoc, List.nil_append, List.length_cons] at hshort ⊢
      rw [startStop_cons, if_pos (Or.inr rfl), startStop_cons, if_neg (not_or.mpr ⟨hcr, hlf⟩),
        keyStop_encode key _ (fun b' hb' => hkey b' (List.mem_cons_of_mem _ hb')) (by omega)]
      rfl

theorem parseHeaders_headerBlock (h : HttpData) (l : HeaderLine) (lines : List HeaderLine) (body : Bytes)
    (hshort : (headerBlock (l :: lines) body).length < 2 ^ 31) :
    ∃ h', parseHeaders (h.atHeaders (headerBlock (l :: lines) body)) = .ok (.again, h') :=
  ⟨_, parseHeaders_waits (h := h.atHeaders (headerBlock (l :: lines) body)) (Or.inl rfl)
    (keptFrom_le _ hshort) (headerStop_headerBlock l lines body hshort)⟩

/-- **No header is decoded**, with or without lines, whatever follows it. -/
theorem parseHeaders_never_decodes (h : HttpData) (lines : List HeaderLine) (body : Bytes) :
    ¬ Decodes lines body (parseHeaders (h.atHeaders (headerBlock lines body))) := by
  rintro ⟨h', hrun, -⟩
  exact parseHeaders_plain (h := h.atHeaders (headerBlock lines body)) (Or.inl rfl) hrun rfl

/-- `Host: a`. -/
def hostLine : HeaderLine where
  key := bytes "Host"
  value := bytes "a"
  key_nonempty := by decide
  key_plain := by decide +kernel
  value_nonempty := by decide
  value_short := by decide
  value_plain := by decide +kernel
  value_start := by decide

theorem parseHeaders_host_not_decoded :
    ¬ Decodes [hostLine] [] (parseHeaders ((HttpData.new 5).atHeaders (headerBlock [hostLine] []))) := by
  rintro ⟨h', hrun, -⟩
  have hagain : (parseHeaders ((HttpData.new 5).atHeaders (headerBlock [hostLine] []))).map Prod.fst =
      .ok .again := by decide
  rw [hrun] at hagain
  cases hagain

end WebServer
