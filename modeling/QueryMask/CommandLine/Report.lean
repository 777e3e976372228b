import QueryMask.CommandLine.Arguments
import QueryMask.Query.Text
import QueryMask.Schema.Text
import QueryMask.Settings.Text
import QueryMask.Text.Json

/-! The program with readers and a writer of its own in place of libraries. -/

namespace QueryMask

namespace CommandLine

def Libraries.builtin : Libraries where
  schema := Schema.reader
  query := Document.reader
  settings := Settings.reader
  arguments := Command.ofArguments
  json := Json.listText

def run : Files → List String → Report := Libraries.builtin.run

end CommandLine

end QueryMask
