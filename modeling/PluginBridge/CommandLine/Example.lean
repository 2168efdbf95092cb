/-!
# The example configuration

A configuration that serves the sample implementations and drives them.
-/
namespace PluginBridge.CommandLine

def exampleConfig : String :=
  "# Serves the sample plugins and drives them from the same file.\n" ++
  "#\n" ++
  "#   ferry serve --config demos/config/minimal.ferry.toml\n" ++
  "#   ferry query --config demos/config/minimal.ferry.toml --set name=foo\n" ++
  "#   ferry build --config demos/config/minimal.ferry.toml\n" ++
  "\n" ++
  "[server]\n" ++
  "listen = \"$\x7bFERRY_LISTEN:127.0.0.1:7400\x7d\"\n" ++
  "mode = \"current\"\n" ++
  "\n" ++
  "[host]\n" ++
  "connect = \"$\x7bFERRY_CONNECT:127.0.0.1:7400\x7d\"\n" ++
  "callback_bind = \"127.0.0.1:0\"\n" ++
  "mode = \"current\"\n" ++
  "\n" ++
  "[plugins]\n" ++
  "search_paths = [\"demos/plugins\"]\n" ++
  "\n" ++
  "[[endpoints]]\n" ++
  "name = \"Datasource\"\n" ++
  "capability = \"datasource\"\n" ++
  "implementation = \"static\"\n" ++
  "\n" ++
  "[endpoints.config]\n" ++
  "lookup = \x7b foo = \"bar\", baz = \"qux\" \x7d\n" ++
  "\n" ++
  "[[endpoints]]\n" ++
  "name = \"Builder\"\n" ++
  "capability = \"builder\"\n" ++
  "implementation = \"echo\"\n" ++
  "\n" ++
  "[endpoints.config]\n" ++
  "target = \"x86_64-unknown-linux-gnu\"\n" ++
  "steps = [\"fetch\", \"compile\", \"package\"]\n"

end PluginBridge.CommandLine
