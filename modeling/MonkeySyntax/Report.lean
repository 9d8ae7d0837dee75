import MonkeySyntax.Error

/-!
# Error reports

What a session shows when a line has errors: a face if wanted, a banner, and the errors one to a
line.
-/

namespace MonkeySyntax.Report

def face : Text :=
  "            __,__
   .--.  .-\"     \"-.  .--.
  / .. \\/  .-. .-.  \\/ .. \\
 | |  '|  /   Y   \\  |'  | |
 | \\   \\  \\ 0 | 0 /  /   / |
  \\ '- ,\\.-\"\"\"\"\"\"\"-./, -' /
   ''-' /_   ^ ^   _\\ '-''
       |  \\._   _./  |
       \\   \\ '~' /   /
        '._ '-=-' _.'
           '-----'
".toList

def banner : Text := "Woops! We ran into some monkey business here!\n".toList

def heading : Text := " parser errors:\n".toList

def ofTexts (showFace : Bool) (errors : List Text) : Text :=
  (if showFace then face else []) ++ banner ++ heading ++
    errors.flatMap fun text => '\t' :: text ++ ['\n']

def ofErrors (showFace : Bool) (errors : List Error) : Text :=
  ofTexts showFace (errors.map Error.text)

end MonkeySyntax.Report
