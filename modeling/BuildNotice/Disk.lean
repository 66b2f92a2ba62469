import BuildNotice.Record
import BuildNotice.Text.Search

namespace BuildNotice

namespace Path

def isAbsolute (path : String) : Bool :=
  path.toList.head? == some '/'

def walk : List (List Char) → List (List Char) → List (List Char)
  | at_, [] => at_.reverse
  | at_, s :: rest =>
    if s = [] ∨ s = ['.'] then walk at_ rest
    else if s = ['.', '.'] then walk at_.tail rest
    else walk (s :: at_) rest

def normalize (path : String) : String :=
  let segments := walk [] (Text.Search.splitOn '/' path.toList)
  String.ofList ('/' :: List.intercalate ['/'] segments)

def resolve (start directory file : String) : String :=
  if isAbsolute file then normalize file
  else if isAbsolute directory then normalize (directory ++ "/" ++ file)
  else normalize (start ++ "/" ++ directory ++ "/" ++ file)

end Path

structure Disk where
  here : String
  bundled : String
  files : List (String × String)

namespace Disk

def read? (d : Disk) (path : String) : Option String :=
  Record.get? path d.files

def write (d : Disk) (path text : String) : Disk :=
  { d with files := Record.set path text d.files }

def remove (d : Disk) (path : String) : Disk :=
  { d with files := d.files.filter fun (p, _) =>
      p != path && !Text.Search.startsWith (path ++ "/").toList p.toList }

end Disk

end BuildNotice
