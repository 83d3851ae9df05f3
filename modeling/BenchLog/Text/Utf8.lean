/-! Reading bytes as UTF-8 without ever refusing them.
Every longest run of bytes that begins a character but does not complete one, and every byte that
begins none, stands for one replacement character.
-/

namespace BenchLog.Text

def replacement : Char := Char.ofNat 0xFFFD

/-- What a byte announces as the first one of a character. -/
inductive Lead where
  /-- The byte is a character by itself. -/
  | single
  /-- One byte follows. -/
  | two
  /-- Two bytes follow, the first of them between the bounds. -/
  | three (low high : UInt8)
  /-- Three bytes follow, the first of them between the bounds. -/
  | four (low high : UInt8)
  /-- No character begins with the byte. -/
  | none

/-- The bounds keep out overlong forms, surrogates and code points beyond the last one. -/
def Lead.ofByte (b : UInt8) : Lead :=
  if b < 0x80 then .single
  else if b < 0xC2 then .none
  else if b < 0xE0 then .two
  else if b = 0xE0 then .three 0xA0 0xBF
  else if b = 0xED then .three 0x80 0x9F
  else if b < 0xF0 then .three 0x80 0xBF
  else if b = 0xF0 then .four 0x90 0xBF
  else if b < 0xF4 then .four 0x80 0xBF
  else if b = 0xF4 then .four 0x80 0x8F
  else .none

def within (low high b : UInt8) : Bool :=
  low ≤ b && b ≤ high

def isContinuation (b : UInt8) : Bool :=
  within 0x80 0xBF b

/-- The six payload bits of a continuation byte. -/
def payload (b : UInt8) : Nat :=
  b.toNat % 64

/-- The characters of a sequence of bytes, with a replacement for each maximal garbled part. -/
def decodeUtf8 : List UInt8 → List Char
  | [] => []
  | b :: bytes =>
      match Lead.ofByte b with
      | .single => Char.ofNat b.toNat :: decodeUtf8 bytes
      | .none => replacement :: decodeUtf8 bytes
      | .two =>
          match bytes with
          | [] => [replacement]
          | b₁ :: bytes₁ =>
              if isContinuation b₁ then
                Char.ofNat (b.toNat % 32 * 64 + payload b₁) :: decodeUtf8 bytes₁
              else
                replacement :: decodeUtf8 (b₁ :: bytes₁)
      | .three low high =>
          match bytes with
          | [] => [replacement]
          | b₁ :: bytes₁ =>
              if within low high b₁ then
                match bytes₁ with
                | [] => [replacement]
                | b₂ :: bytes₂ =>
                    if isContinuation b₂ then
                      Char.ofNat ((b.toNat % 16 * 64 + payload b₁) * 64 + payload b₂)
                        :: decodeUtf8 bytes₂
                    else
                      replacement :: decodeUtf8 (b₂ :: bytes₂)
              else
                replacement :: decodeUtf8 (b₁ :: bytes₁)
      | .four low high =>
          match bytes with
          | [] => [replacement]
          | b₁ :: bytes₁ =>
              if within low high b₁ then
                match bytes₁ with
                | [] => [replacement]
                | b₂ :: bytes₂ =>
                    if isContinuation b₂ then
                      match bytes₂ with
                      | [] => [replacement]
                      | b₃ :: bytes₃ =>
                          if isContinuation b₃ then
                            Char.ofNat
                                (((b.toNat % 8 * 64 + payload b₁) * 64 + payload b₂) * 64
                                  + payload b₃)
                              :: decodeUtf8 bytes₃
                          else
                            replacement :: decodeUtf8 (b₃ :: bytes₃)
                    else
                      replacement :: decodeUtf8 (b₂ :: bytes₂)
              else
                replacement :: decodeUtf8 (b₁ :: bytes₁)

def textOfBytes (bytes : List UInt8) : String :=
  String.ofList (decodeUtf8 bytes)

def bytesOfText (s : String) : List UInt8 :=
  s.toUTF8.toList

/-- The text of bytes that are valid UTF-8 throughout. -/
def textOfBytes? (bytes : List UInt8) : Option String :=
  let text := textOfBytes bytes
  if bytesOfText text = bytes then some text else none

/-- Bytes that are read as text are the bytes of that text. -/
theorem bytesOfText_of_textOfBytes? {bytes : List UInt8} {text : String}
    (h : textOfBytes? bytes = some text)
    : bytesOfText text = bytes := by
  unfold textOfBytes? at h
  simp only at h
  split at h
  · rename_i he
    exact Option.some.inj h ▸ he
  · cases h

end BenchLog.Text
