namespace YangBinding.CommandLine

-- What a word of the command line looks like. A single dash is a bare word, two of them alone
-- end the options.
inductive Word where
  | bare
  | stop
  | long (name : String) (value : Option String)
  | short (letters : List Char)
deriving Repr, DecidableEq

-- The name of a long option, and the value after the first equals sign if there is one.
def splitLong (cs : List Char) : Word :=
  let name := String.ofList (cs.takeWhile (· != '='))
  match cs.dropWhile (· != '=') with
  | [] => .long name none
  | _ :: value => .long name (some (String.ofList value))

def Word.ofText (word : String) : Word :=
  match word.toList with
  | '-' :: '-' :: [] => .stop
  | '-' :: '-' :: cs => splitLong cs
  | '-' :: c :: cs => .short (c :: cs)
  | _ => .bare

end YangBinding.CommandLine
