import TypedClient.Render.Module

/-!
# The index and the support files

The index exports the class and the instance of every module. The two support
files are written once and belong to the user from then on.
-/

namespace TypedClient

def modulesDirectory : String := "modules"

/-- The exports of one module. -/
def indexEntry (names : TagNames) : String :=
  let source := "./" ++ modulesDirectory ++ "/" ++ names.fileStem
  "export type \x7b " ++ names.className ++ " \x7d from '" ++ source ++ "'\nexport \x7b " ++
    names.instanceName ++ " \x7d from '" ++ source ++ "'\n"

/-- The text of the index for the modules of the given names. -/
def indexText (modules : List TagNames) : String :=
  "/* " ++ generatedNotice ++ " */\n" ++ String.join (modules.map indexEntry)

/-- The file that modules import the HTTP instance from. -/
def transportStub : String :=
  "/**\n * This file is only written once and never overwritten.\n" ++
    " * Import your axios instance (or anything exposing a compatible `request`\n" ++
    " * method) and export it as `$http`.\n */\n" ++
    "import $http from '@/utils/http'\n\nexport \x7b $http \x7d\n"

/-- The file that modules import the type of responses from. -/
def responseStub : String :=
  "/* eslint-disable @typescript-eslint/no-explicit-any */\n" ++
    "/**\n * This file is only written once and never overwritten.\n" ++
    " * Adjust the envelope to match your API; the generic `T` is the response data type.\n" ++
    " */\nexport type \x7b AxiosRequestConfig \x7d from 'axios'\n\n" ++
    "export interface ResponseType<T = any> \x7b\n  code?: number\n  status?: number\n" ++
    "  message?: string\n  success?: boolean\n  data?: T\n\x7d\n"

end TypedClient
