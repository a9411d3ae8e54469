import EchProxy.Ech.Grammar

/-! # The Wire Encoding of a Response

    A response as a value, its wire form, and the round trip: the parser
    returns what the encoded response says.  A name, a record and a response
    carry the bounds of the wire format as fields, so that every value has an
    encoding.
-/

namespace EchProxy

namespace Ech

open Checked Result

variable {w : Width}

/-! ## Encoding -/

/-- `u16::to_be_bytes`. -/
def put16 (n : Nat) : Bytes := [UInt8.ofNat (n / 256), UInt8.ofNat n]

/-- `u32::to_be_bytes`. -/
def put32 (n : Nat) : Bytes := put16 (n / 65536) ++ put16 (n % 65536)

/-- A label of a name. -/
structure Label where
  bytes : Bytes
  nonempty : 1 ≤ bytes.length
  short : bytes.length ≤ 63

def Label.encode (l : Label) : Bytes := UInt8.ofNat l.bytes.length :: l.bytes

/-- What ends a name. -/
inductive NameEnd where
  | root
  | pointer (first second : UInt8) (top : first &&& 0xc0 = 0xc0)

def NameEnd.encode : NameEnd → Bytes
  | .root => [0]
  | .pointer first second _ => [first, second]

/-- A name. -/
structure WireName where
  labels : List Label
  stop : NameEnd

def WireName.encode (n : WireName) : Bytes := n.labels.flatMap Label.encode ++ n.stop.encode

theorem Label.toNat_length (l : Label) :
    (UInt8.ofNat l.bytes.length).toNat = l.bytes.length := by
  have hshort := l.short
  rw [UInt8.toNat_ofNat']
  omega

theorem WireName.encode_cons (l : Label) (labels : List Label) (stop : NameEnd) :
    WireName.encode ⟨l :: labels, stop⟩ =
      UInt8.ofNat l.bytes.length :: (l.bytes ++ WireName.encode ⟨labels, stop⟩) := by
  simp [WireName.encode, Label.encode]

/-- A question. -/
structure Question where
  name : WireName
  qtype : UInt16
  qclass : UInt16

def Question.encode (q : Question) : Bytes :=
  q.name.encode ++ put16 q.qtype.toNat ++ put16 q.qclass.toNat

/-- A parameter of an HTTPS record. -/
structure Param where
  key : UInt16
  value : Bytes

def Param.encode (p : Param) : Bytes :=
  put16 p.key.toNat ++ put16 p.value.length ++ p.value

/-- The type of a record and its data. -/
inductive RecordData where
  | https (priority : UInt16) (target : WireName) (params : List Param)
  | other (rrType : UInt16) (notHttps : rrType ≠ 65) (rdata : Bytes)

def RecordData.rrType : RecordData → UInt16
  | .https .. => 65
  | .other rrType _ _ => rrType

def RecordData.encode : RecordData → Bytes
  | .https priority target params =>
    put16 priority.toNat ++ target.encode ++ params.flatMap Param.encode
  | .other _ _ rdata => rdata

/-- An answer record. -/
structure Record where
  owner : WireName
  rrClass : UInt16
  ttl : UInt32
  data : RecordData
  fits : data.encode.length < 65536

def Record.encode (r : Record) : Bytes :=
  r.owner.encode ++ put16 r.data.rrType.toNat ++ put16 r.rrClass.toNat ++ put32 r.ttl.toNat ++
    put16 r.data.encode.length ++ r.data.encode

/-- A response without an error code; what follows the answers is free. -/
structure Response where
  id : UInt16
  flags : UInt16
  isResponse : flags.toNat &&& 0x8000 ≠ 0
  noError : flags.toNat &&& 0x000f = 0
  questions : List Question
  answers : List Record
  fewQuestions : questions.length < 65536
  fewAnswers : answers.length < 65536
  nscount : UInt16
  arcount : UInt16
  trailing : Bytes

def Response.encode (r : Response) : Bytes :=
  put16 r.id.toNat ++ put16 r.flags.toNat ++ put16 r.questions.length ++
    put16 r.answers.length ++ put16 r.nscount.toNat ++ put16 r.arcount.toNat ++
    r.questions.flatMap Question.encode ++ r.answers.flatMap Record.encode ++ r.trailing

/-! ## What a response says -/

/-- The value of the first parameter 5. -/
def firstEch (params : List Param) : Option Bytes :=
  (params.find? fun p => p.key = 5).map Param.value

def Record.ech (r : Record) : Option Bytes :=
  match r.data with
  | .https _ _ params => firstEch params
  | .other .. => none

/-- The `ech` value of a record with the TTL of the record: 300 seconds stand
    in for zero. -/
def Record.found (r : Record) : Option (Bytes × Nat) :=
  r.ech.map fun value => (value, if r.ttl.toNat = 0 then 300 else r.ttl.toNat)

/-- The first answer with an `ech` parameter. -/
def Response.ech (r : Response) : Option (Bytes × Nat) :=
  r.answers.findSome? Record.found

/-! ## Segments of a message -/

/-- The bytes `bs` stand at a position of the message. -/
def Stands (message : Bytes) (pos : Nat) (bs : Bytes) : Prop :=
  ∃ before after, message = before ++ (bs ++ after) ∧ before.length = pos

section segments
variable {message : Bytes} {pos : Nat}

theorem Stands.left {xs ys : Bytes} (h : Stands message pos (xs ++ ys)) :
    Stands message pos xs := by
  obtain ⟨before, after, rfl, rfl⟩ := h
  exact ⟨before, ys ++ after, by simp, rfl⟩

theorem Stands.right {xs ys : Bytes} (h : Stands message pos (xs ++ ys)) :
    Stands message (pos + xs.length) ys := by
  obtain ⟨before, after, rfl, rfl⟩ := h
  exact ⟨before ++ xs, after, by simp, by simp⟩

theorem Stands.head {b : UInt8} {bs : Bytes} (h : Stands message pos (b :: bs)) :
    message[pos]? = some b := by
  obtain ⟨before, after, rfl, rfl⟩ := h
  simp

theorem Stands.tail {b : UInt8} {bs : Bytes} (h : Stands message pos (b :: bs)) :
    Stands message (pos + 1) bs := by
  have hsplit : Stands message pos ([b] ++ bs) := h
  exact hsplit.right

theorem Stands.fits {bs : Bytes} (h : Stands message pos bs) :
    pos + bs.length ≤ message.length := by
  obtain ⟨before, after, rfl, rfl⟩ := h
  simp only [List.length_append]
  omega

theorem Stands.value {bs : Bytes} (h : Stands message pos bs) :
    (message.drop pos).take bs.length = bs := by
  obtain ⟨before, after, rfl, rfl⟩ := h
  rw [List.drop_left, List.take_left]

theorem be16_put16 {n : Nat} (h : n < 65536) :
    be16 (UInt8.ofNat (n / 256)) (UInt8.ofNat n) = n := by
  simp only [be16, UInt8.toNat_ofNat']
  omega

theorem Stands.u16At {n : Nat} (hn : n < 65536) (h : Stands message pos (put16 n)) :
    u16At message pos = some n := by
  rw [Ech.u16At, h.head, h.tail.head]
  exact congrArg some (be16_put16 hn)

theorem Stands.u32At {n : Nat} (hn : n < 2 ^ 32) (h : Stands message pos (put32 n)) :
    u32At message pos = some n := by
  have hlow : Stands message (pos + 2) (put16 (n % 65536)) := h.right
  have hhigh : Stands message pos (put16 (n / 65536)) := h.left
  rw [Ech.u32At, hhigh.head, hhigh.tail.head, hlow.head, hlow.tail.head]
  simp only [Option.bind_eq_bind, Option.bind_some, Option.pure_def, be32]
  rw [be16_put16 (by omega), be16_put16 (by omega)]
  congr 1
  omega

end segments

/-! ## The encoding stands in the grammar -/

section encoded
variable {message : Bytes} {pos stop : Nat}

/-- An encoded name is a name of the message. -/
theorem nameAt_of_stands {n : WireName} (h : Stands message pos n.encode)
    (hstop : pos + n.encode.length ≤ stop) :
    NameAt message stop pos (pos + n.encode.length) := by
  obtain ⟨labels, nameEnd⟩ := n
  -- on the labels, each of which is one step of the rule
  induction labels generalizing pos with
  | nil =>
    have hfits := h.fits
    cases nameEnd with
    | root =>
      rw [show (WireName.encode ⟨[], .root⟩).length = 1 from rfl] at hstop ⊢
      exact .root (by omega) h.head
    | pointer first second top =>
      rw [show (WireName.encode ⟨[], .pointer first second top⟩).length = 2 from rfl]
        at hstop hfits ⊢
      exact .pointer h.head top (by omega) (by omega)
  | cons l labels ih =>
    have hnonempty := l.nonempty
    have hshort := l.short
    have hbyte := l.toNat_length
    rw [WireName.encode_cons] at h hstop ⊢
    rw [List.length_cons, List.length_append] at hstop ⊢
    have hrest := ih h.tail.right (by omega)
    refine .label h.head (by omega) (by omega) ?_
    rw [hbyte]
    convert hrest using 1
    omega

/-- Encoded parameters are the parameters of the message, and the loop finds
    the first 5 among them. -/
theorem paramsAt_of_stands {params : List Param}
    (h : Stands message pos (params.flatMap Param.encode))
    (hsmall : (params.flatMap Param.encode).length < 65536) :
    ∃ found, ParamsAt message (pos + (params.flatMap Param.encode).length) pos found ∧
      valueAt message found = firstEch params := by
  induction params generalizing pos with
  | nil => exact ⟨none, .done (Nat.le_refl _), rfl⟩
  | cons p params ih =>
    rw [List.flatMap_cons] at h hsmall ⊢
    rw [List.length_append] at hsmall ⊢
    have hlength : p.encode.length = 4 + p.value.length := by
      simp [Param.encode, put16]
      omega
    have hencode : p.encode = put16 p.key.toNat ++ (put16 p.value.length ++ p.value) := by
      simp [Param.encode]
    have hparam := h.left
    rw [hencode] at hparam
    have hkey := hparam.left.u16At p.key.toNat_lt
    have hlen : u16At message (pos + 2) = some p.value.length :=
      hparam.right.left.u16At (by omega)
    -- the search stops at the first `ech`, and passes any other key over
    by_cases hech : p.key = 5
    · refine ⟨some (pos + 4, p.value.length), .ech (by omega) ?_ hlen, ?_⟩
      · rw [hkey, hech]
        rfl
      · have hvalue : Stands message (pos + 4) p.value := hparam.right.right
        rw [firstEch, List.find?_cons_of_pos (by simpa using hech)]
        exact congrArg some hvalue.value
    · obtain ⟨found, hfound, hvalue⟩ := ih h.right (by omega)
      have hnext : pos + p.encode.length = pos + 4 + p.value.length := by omega
      refine ⟨found, .other (by omega) hkey ?_ hlen ?_, ?_⟩
      · intro heq
        exact hech (UInt16.toNat_inj.mp heq)
      · rw [hnext] at hfound
        convert hfound using 1
        omega
      · rw [firstEch, List.find?_cons_of_neg (by simpa using hech)]
        exact hvalue

/-- Encoded questions are the questions of the message. -/
theorem questionsAt_of_stands {questions : List Question}
    (h : Stands message pos (questions.flatMap Question.encode)) :
    QuestionsAt message questions.length pos
      (pos + (questions.flatMap Question.encode).length) := by
  induction questions generalizing pos with
  | nil => exact .done
  | cons q questions ih =>
    rw [List.flatMap_cons] at h ⊢
    rw [List.length_append]
    have hlength : q.encode.length = q.name.encode.length + 4 := by
      simp [Question.encode, put16]
    have hquestion := h.left
    have hfits := hquestion.fits
    rw [Question.encode, List.append_assoc] at hquestion
    have hname : NameAt message message.length _ _ :=
      nameAt_of_stands hquestion.left hquestion.left.fits
    have hrest := ih h.right
    have hnext : pos + q.name.encode.length + 4 = pos + q.encode.length := by omega
    refine .next hname (by omega) ?_
    rw [hnext, ← Nat.add_assoc]
    exact hrest

/-- An encoded record is an answer of the message. -/
theorem answerAt_of_stands {r : Record} (h : Stands message pos r.encode) :
    ∃ answer, AnswerAt message pos answer ∧ answer.rrType = r.data.rrType.toNat ∧
      answer.ttl = r.ttl.toNat ∧ answer.rdataEnd = pos + r.encode.length ∧
      Stands message answer.rdataStart r.data.encode ∧
      answer.rdataEnd = answer.rdataStart + r.data.encode.length := by
  have hlength : r.encode.length = r.owner.encode.length + 10 + r.data.encode.length := by
    simp [Record.encode, put16, put32]
    omega
  -- the fields of a record, in the order they are read
  have hencode : r.encode = r.owner.encode ++ (put16 r.data.rrType.toNat ++
      (put16 r.rrClass.toNat ++ (put32 r.ttl.toNat ++
        (put16 r.data.encode.length ++ r.data.encode)))) := by
    simp [Record.encode]
  have hfits := h.fits
  rw [hencode] at h
  have hname : NameAt message message.length _ _ := nameAt_of_stands h.left h.left.fits
  have htype := h.right.left.u16At r.data.rrType.toNat_lt
  have hclass := h.right.right.left.u16At r.rrClass.toNat_lt
  have httl := h.right.right.right.left.u32At r.ttl.toNat_lt
  have hrdlen := h.right.right.right.right.left.u16At r.fits
  have hrdata := h.right.right.right.right.right
  refine ⟨_, .intro hname htype hclass httl hrdlen (by omega), rfl, rfl, ?_, ?_, rfl⟩
  · show pos + r.owner.encode.length + 10 + r.data.encode.length = pos + r.encode.length
    omega
  · exact hrdata

end encoded

/-! ## Round trip -/

/-- The RDATA of an encoded HTTPS record gives its first `ech` parameter. -/
theorem parseRdata_of_stands {message : Slice w} {start : Nat} {priority : UInt16}
    {target : WireName} {params : List Param}
    (h : Stands message.data start (RecordData.https priority target params).encode)
    (hsmall : (RecordData.https priority target params).encode.length < 65536) :
    parseHttpsRdataForEch message start
      (start + (RecordData.https priority target params).encode.length)
      = .ok (firstEch params) := by
  have hfits := h.fits
  have hlength : (RecordData.https priority target params).encode.length
      = 2 + target.encode.length + (params.flatMap Param.encode).length := by
    simp [RecordData.encode, put16]
    omega
  rw [RecordData.encode, List.append_assoc] at h
  obtain ⟨found, hparams, hvalue⟩ := paramsAt_of_stands h.right.right (by omega)
  have hend : start + (RecordData.https priority target params).encode.length
      = start + 2 + target.encode.length + (params.flatMap Param.encode).length := by omega
  rw [hend] at hfits ⊢
  rw [← hvalue]
  exact parseHttpsRdataForEch_ok hfits
    ⟨_, nameAt_of_stands h.right.left (Nat.le_add_right _ _), hparams⟩

/-- One turn of the search: an encoded answer with an `ech` value ends it, any
    other answer is passed over. -/
theorem searchAnswers_step {message : Slice w} {r : Record} {pos : Nat}
    (h : Stands message.data pos r.encode) (n : Nat) :
    searchAnswers message (n + 1) pos =
      match r.found with
      | some found => .ok found
      | none => searchAnswers message n (pos + r.encode.length) := by
  obtain ⟨answer, hanswer, htype, httl, hend, hrdata, hrdataEnd⟩ := answerAt_of_stands h
  rw [searchAnswers, readAnswer_ok hanswer, ok_bind, ← hend]
  obtain ⟨owner, rrClass, ttl, data, fits⟩ := r
  cases data with
  | https priority target params =>
    have hhttps : answer.rrType = httpsType := htype
    have hparse := parseRdata_of_stands hrdata fits
    rw [if_pos hhttps, hrdataEnd, hparse, ok_bind, httl]
    simp only [Record.found, Record.ech]
    cases firstEch params <;> rfl
  -- a record of another type is passed over
  | other rrType notHttps rdata =>
    have hother : answer.rrType ≠ httpsType := by
      rw [htype]
      exact fun heq => notHttps (UInt16.toNat_inj.mp heq)
    rw [if_neg hother]
    rfl

/-- The search through encoded answers. -/
theorem searchAnswers_of_stands {message : Slice w} {answers : List Record} {pos : Nat}
    (h : Stands message.data pos (answers.flatMap Record.encode)) :
    searchAnswers message answers.length pos =
      match answers.findSome? Record.found with
      | some found => .ok found
      | none => bail "HTTPS response did not contain an ech SVCB parameter" := by
  induction answers generalizing pos with
  | nil => rfl
  | cons a answers ih =>
    rw [List.flatMap_cons] at h
    rw [List.length_cons, searchAnswers_step h.left, ih h.right, List.findSome?_cons]
    cases a.found <;> rfl

/-- **The parser undoes the encoding**: it returns the first `ech` value of the
    answers with its TTL, or the error that there is none; no other record and
    no other parameter matters. -/
theorem parse_encode (message : Slice w) (r : Response) (h : message.data = r.encode) :
    parseHttpsResponseForEch message =
      match r.ech with
      | some found => .ok found
      | none => bail "HTTPS response did not contain an ech SVCB parameter" := by
  -- the header is six numbers of two bytes, and then come the two sections
  have hstands : Stands message.data 0 (put16 r.id.toNat ++ (put16 r.flags.toNat ++
      (put16 r.questions.length ++ (put16 r.answers.length ++ (put16 r.nscount.toNat ++
        (put16 r.arcount.toNat ++ (r.questions.flatMap Question.encode ++
          (r.answers.flatMap Record.encode ++ r.trailing)))))))) := by
    refine ⟨[], [], ?_, rfl⟩
    rw [h, Response.encode]
    simp
  have hlong : 12 ≤ message.data.length := by
    have hfits := hstands.fits
    simp only [List.length_append, put16, List.length_cons, List.length_nil] at hfits
    omega
  have hflags : u16At message.data 2 = some r.flags.toNat :=
    hstands.right.left.u16At r.flags.toNat_lt
  have hqd : u16At message.data 4 = some r.questions.length :=
    hstands.right.right.left.u16At r.fewQuestions
  have han : u16At message.data 6 = some r.answers.length :=
    hstands.right.right.right.left.u16At r.fewAnswers
  have hrest := hstands.right.right.right.right.right.right
  have hquestions : QuestionsAt message.data r.questions.length 12 _ :=
    questionsAt_of_stands hrest.left
  rw [parseHttpsResponseForEch, if_neg (by omega), readU16_ok hflags, ok_bind,
    if_neg r.isResponse, if_neg (not_not.mpr r.noError), readU16_ok hqd, ok_bind, readU16_ok han,
    ok_bind, skipQuestions_ok hquestions, ok_bind]
  exact searchAnswers_of_stands hrest.right.left

/-- The name `a`, by label and by pointer. -/
def exampleName : WireName := ⟨[⟨[0x61], by decide, by decide⟩], .root⟩

def examplePointer : WireName := ⟨[], .pointer 0xc0 12 (by decide)⟩

/-- A question for `a`, answered with an address, an HTTPS record without
    `ech` and one with it. -/
def exampleResponse : Response where
  id := 0x4543
  flags := 0x8180
  isResponse := by decide
  noError := by decide
  questions := [⟨exampleName, 65, 1⟩]
  answers :=
    [⟨exampleName, 1, 60, .other 1 (by decide) [10, 0, 0, 1], by decide⟩,
      ⟨examplePointer, 1, 60, .https 1 exampleName [⟨1, [2, 0x68, 0x32]⟩], by decide⟩,
      ⟨examplePointer, 1, 0, .https 1 examplePointer [⟨1, []⟩, ⟨5, [7, 7]⟩], by decide⟩]
  fewQuestions := by decide
  fewAnswers := by decide
  nscount := 0
  arcount := 1
  trailing := [0, 0, 41]

theorem parse_encode_example :
    ∃ fits, parseHttpsResponseForEch (⟨exampleResponse.encode, fits⟩ : Slice .bits64)
      = .ok ([7, 7], 300) :=
  ⟨by decide, parse_encode ⟨exampleResponse.encode, by decide⟩ exampleResponse rfl⟩

end Ech

end EchProxy
