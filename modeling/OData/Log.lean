import OData.Text

namespace OData

inductive LogLevel
  | error
  | warn
  | info
  | debug
  | trace
deriving DecidableEq, Repr

namespace LogLevel

def all : List LogLevel := [.error, .warn, .info, .debug, .trace]

def name : LogLevel → String
  | .error => "ERROR"
  | .warn => "WARN"
  | .info => "INFO"
  | .debug => "DEBUG"
  | .trace => "TRACE"

def rank (level : LogLevel) : Nat := all.idxOf level

end LogLevel

inductive LogValue
  | number (n : Nat)
  | plain (text : Text)
  | quoted (text : Text)
deriving DecidableEq, Repr

structure LogRecord where
  level : LogLevel
  message : Text
  fields : List (String × LogValue)
deriving DecidableEq, Repr

/-- A text in quotes, with escapes for quotes, backslashes and control characters. -/
def debugQuoted (text : Text) : Text :=
  '"' :: text.flatMap (fun c =>
    if c = '"' then "\\\"".toList
    else if c = '\\' then "\\\\".toList
    else if c = '\n' then "\\n".toList
    else if c = '\r' then "\\r".toList
    else if c = '\t' then "\\t".toList
    else if c = '\x00' then "\\0".toList
    else if c.toNat < 32 ∨ (127 ≤ c.toNat ∧ c.toNat < 160) then
      "\\u\x7b".toList ++ Nat.toDigits 16 c.toNat ++ ['}']
    else [c]) ++ ['"']

def LogValue.text : LogValue → Text
  | .number n => Text.ofNat n
  | .plain text => text
  | .quoted text => debugQuoted text

/-- The record as a line: level, message and fields. -/
def LogRecord.line (record : LogRecord) : Text :=
  Text.join [' '] (record.level.name.toList :: record.message ::
    record.fields.map fun (key, value) => key.toList ++ '=' :: value.text)

end OData
