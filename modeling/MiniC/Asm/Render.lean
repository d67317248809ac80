import MiniC.Asm

/-!
# The text of assembly lines

Instructions are spelled with the target first and without marks on registers.
Directives and instructions are indented by two blanks; labels are not.
-/

namespace MiniC
namespace Asm

namespace Reg

/-- The names of a register's low parts. -/
def name : Reg -> Width -> String
  | rax, .byte => "al"
  | rax, .word => "ax"
  | rax, .dword => "eax"
  | rax, .qword => "rax"
  | rdi, .byte => "dil"
  | rdi, .word => "di"
  | rdi, .dword => "edi"
  | rdi, .qword => "rdi"
  | rsi, .byte => "sil"
  | rsi, .word => "si"
  | rsi, .dword => "esi"
  | rsi, .qword => "rsi"
  | rdx, .byte => "dl"
  | rdx, .word => "dx"
  | rdx, .dword => "edx"
  | rdx, .qword => "rdx"
  | rcx, .byte => "cl"
  | rcx, .word => "cx"
  | rcx, .dword => "ecx"
  | rcx, .qword => "rcx"
  | r8, .byte => "r8b"
  | r8, .word => "r8w"
  | r8, .dword => "r8d"
  | r8, .qword => "r8"
  | r9, .byte => "r9b"
  | r9, .word => "r9w"
  | r9, .dword => "r9d"
  | r9, .qword => "r9"
  | rsp, .byte => "spl"
  | rsp, .word => "sp"
  | rsp, .dword => "esp"
  | rsp, .qword => "rsp"
  | rbp, .byte => "bpl"
  | rbp, .word => "bp"
  | rbp, .dword => "ebp"
  | rbp, .qword => "rbp"

/-- The name of a whole register. -/
def full (reg : Reg) : String := reg.name .qword

end Reg

namespace Cond

/-- The ending of instructions that depend on a condition. -/
def ending : Cond -> String
  | eq => "e"
  | ne => "ne"
  | lt => "l"
  | le => "le"
  | gt => "g"
  | ge => "ge"

end Cond

namespace Alu

/-- The name of an arithmetic instruction. -/
def name : Alu -> String
  | add => "add"
  | sub => "sub"
  | mul => "imul"

end Alu

namespace Role

/-- The word for a role in a label. -/
def word : Role -> String
  | otherwise => "else"
  | start => "begin"
  | stop => "end"
  | onTrue => "true"
  | onFalse => "false"

end Role

namespace Label

/-- The spelling of a label. -/
def render : Label -> String
  | symbol name => name
  | exit function => ".L.return." ++ function
  | named function name => ".L.label." ++ function ++ "." ++ name
  | numbered role number => ".L." ++ role.word ++ "." ++ toString number

end Label

namespace Instr

/-- An instruction with two operands. -/
def binary (name target source : String) : String :=
  name ++ " " ++ target ++ ", " ++ source

/-- A memory operand above the address in a register. -/
def above (reg : Reg) (offset : String) : String :=
  "[" ++ reg.full ++ " + " ++ offset ++ "]"

/-- A slot of the frame. -/
def slot (offset : Int) : String :=
  "[" ++ Reg.rbp.full ++ " - " ++ toString offset ++ "]"

/-- The spelling of an instruction. -/
def render : Instr -> String
  | push reg => "push " ++ reg.full
  | pop reg => "pop " ++ reg.full
  | move target source => binary "mov" target.full source.full
  | set target value => binary "mov" target.full (toString value)
  | addConst target value => binary "add" target.full (toString value)
  | subConst target value => binary "sub" target.full (toString value)
  | frameAddress offset => binary "lea" "rax" (slot offset)
  | symbolAddress name => binary "lea" "rax" ("[rip + " ++ name ++ "]")
  | storeFrame offset source width =>
      binary "mov" (slot offset) (source.name width)
  | load .byte => binary "movsx" "rax" "byte ptr [rax]"
  | load .word => binary "movsx" "rax" "word ptr [rax]"
  | load .dword => binary "movsxd" "rax" "dword ptr [rax]"
  | load .qword => binary "mov" "rax" "[rax]"
  | store width => binary "mov" "[rax]" (Reg.rdi.name width)
  | loadByte offset => binary "mov" "r8b" (above .rdi (toString offset))
  | storeByte offset => binary "mov" (above .rax (toString offset)) "r8b"
  | compareZero => binary "cmp" "rax" "0"
  | compare => binary "cmp" "rax" "rdi"
  | setCond cond => "set" ++ cond.ending ++ " al"
  | zeroExtend => binary "movzx" "eax" "al"
  | signExtend .byte => binary "movsx" "rax" "al"
  | signExtend .word => binary "movsx" "rax" "ax"
  | signExtend .dword => binary "movsxd" "rax" "eax"
  | signExtend .qword => binary "mov" "rax" "rax"
  | negate => "neg rax"
  | complement => "not rax"
  | alu op => binary op.name "rax" "rdi"
  | extendDividend => "cqo"
  | divide => "idiv rdi"
  | jump target => "jmp " ++ target.render
  | jumpEq target => "je " ++ target.render
  | jumpNe target => "jne " ++ target.render
  | call name => "call " ++ name
  | ret => "ret"

end Instr

/-- The spelling of a character in a quoted file name: printable characters of
the basic alphabet stand for themselves, quotes and backslashes with a backslash
before them, and all else is written by its code. -/
def quotedChar (char : Char) : String :=
  if char = '\t' then "\\t"
  else if char = '\r' then "\\r"
  else if char = '\n' then "\\n"
  else if char = '\'' then "\\'"
  else if char = '"' then "\\\""
  else if char = '\\' then "\\\\"
  else if ' ' ≤ char ∧ char ≤ '~' then String.singleton char
  else "\\u\x7b" ++ String.ofList (Nat.toDigits 16 char.toNat) ++ "\x7d"

/-- A file name in quotes. -/
def quoted (name : String) : String :=
  "\"" ++ String.join (name.toList.map quotedChar) ++ "\""

namespace Directive

/-- The spelling of a directive. -/
def render : Directive -> String
  | intelSpelling => ".intel_syntax noprefix"
  | file name => ".file 1 " ++ quoted name
  | data => ".data"
  | text => ".text"
  | localSymbol name => ".local " ++ name
  | globalSymbol name => ".global " ++ name
  | align bytes => ".align " ++ toString bytes
  | byte value => ".byte " ++ toString value.toNat
  | zero bytes => ".zero " ++ toString bytes
  | loc line => ".loc 1 " ++ toString line

end Directive

namespace Line

/-- The text of a line, its line break included. -/
def render : Line -> String
  | directive order => "  " ++ order.render ++ "\n"
  | label place => place.render ++ ":\n"
  | instr step => "  " ++ step.render ++ "\n"

end Line

/-- The text of lines. -/
def Code.render (code : Code) : String :=
  String.join (code.map Line.render)

end Asm
end MiniC
