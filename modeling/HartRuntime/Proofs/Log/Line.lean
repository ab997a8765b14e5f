import HartRuntime.Log
import HartRuntime.Text.Utf8

namespace HartRuntime.Log

/-- A level's name. -/
def Level.name : Level → String
  | .error => "ERROR"
  | .warn => "WARN"
  | .info => "INFO"
  | .debug => "DEBUG"
  | .trace => "TRACE"

theorem utf8_label (level : Level) : utf8 level.label = (utf8 level.name).leftpad 5 32 := by
  cases level <;> decide +kernel

/-- A record as bytes: an escape sequence with the colour of the level, the name of the level in
    five columns between brackets, the text, an escape sequence that ends the colour, and the end
    of the line. -/
def lineBytes (level : Level) (text : String) : List UInt8 :=
  [27, 91] ++ utf8 level.colour ++ [109, 91] ++ (utf8 level.name).leftpad 5 32 ++ [93, 32] ++
    utf8 text ++ [27, 91, 48, 109, 10]

theorem utf8_line (level : Level) (text : String) : utf8 (line level text) = lineBytes level text := by
  have hopen : utf8 "\x1b[" = [27, 91] := by decide +kernel
  have hlabel : utf8 "m[" = [109, 91] := by decide +kernel
  have hclose : utf8 "] " = [93, 32] := by decide +kernel
  have hend : utf8 "\x1b[0m\n" = [27, 91, 48, 109, 10] := by decide +kernel
  rw [line, utf8_append, utf8_append, utf8_append, utf8_append, utf8_append, utf8_append,
    utf8_label, hopen, hlabel, hclose, hend, lineBytes]

theorem colour_injective : Function.Injective Level.colour := by
  intro first second h
  cases first <;> cases second <;> simp_all [Level.colour]

end HartRuntime.Log
