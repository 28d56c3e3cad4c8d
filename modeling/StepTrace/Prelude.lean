/-!
The script that is loaded before instrumented programs. It defines the function that probes call, wraps
the declarators of suites and cases, and appends every event as one line to a file.
-/
namespace StepTrace.Prelude

/-- The lines of the script. -/
def lines : List String :=
  [ "'use strict';"
  , "// stepwise runtime prelude."
  , "//"
  , "// Load before instrumented code (`node -r ./stepwise-prelude.js`, or a test"
  , "// runner setup file). Every event is appended as one JSON line to the file"
  , "// named by STEPWISE_EVENTS; `stepwise ingest` turns that stream into steps."
  , ""
  , "(function install(root) \x7b"
  , "  var fs = require('fs');"
  , "  var target = process.env.STEPWISE_EVENTS;"
  , "  var MARKER = '$stepwise';"
  , "  // containers nested deeper than this, or entries past the width limit,"
  , "  // are replaced by a truncated marker"
  , "  var MAX_DEPTH = 6;"
  , "  var MAX_ENTRIES = 100;"
  , "  var VARIANTS = ['only', 'skip', 'concurrent', 'failing', 'sequential'];"
  , "  var suites = [];"
  , ""
  , "  // Several processes and workers may share one events file; ingest keeps"
  , "  // their cases apart by this id."
  , "  var stream = (function () \x7b"
  , "    var thread = 0;"
  , "    try \x7b"
  , "      thread = require('worker_threads').threadId || 0;"
  , "    \x7d catch (_) \x7b\x7d"
  , "    return process.pid + ':' + thread;"
  , "  \x7d)();"
  , ""
  , "  function emit(event) \x7b"
  , "    if (!target) return;"
  , "    event.stream = stream;"
  , "    try \x7b"
  , "      fs.appendFileSync(target, JSON.stringify(event) + '\\n');"
  , "    \x7d catch (_) \x7b"
  , "      // the observed program must keep running"
  , "    \x7d"
  , "  \x7d"
  , ""
  , "  function marker(tag, extra) \x7b"
  , "    var out = \x7b\x7d;"
  , "    out[MARKER] = tag;"
  , "    if (extra) \x7b"
  , "      for (var k in extra) out[k] = extra[k];"
  , "    \x7d"
  , "    return out;"
  , "  \x7d"
  , ""
  , "  function encode(value, seen) \x7b"
  , "    switch (typeof value) \x7b"
  , "      case 'undefined':"
  , "        return marker('undefined');"
  , "      case 'function':"
  , "        return marker('function', \x7b name: value.name || '' \x7d);"
  , "      case 'symbol':"
  , "        return marker('symbol', \x7b description: value.description || '' \x7d);"
  , "      case 'bigint':"
  , "        return marker('bigint', \x7b value: value.toString() \x7d);"
  , "      case 'number':"
  , "        return isFinite(value) ? value : String(value);"
  , "      case 'string':"
  , "      case 'boolean':"
  , "        return value;"
  , "    \x7d"
  , "    if (value === null) return null;"
  , "    if (typeof value.then === 'function' && value instanceof Promise) return marker('promise');"
  , "    if (typeof value.toJSON === 'function') return encode(value.toJSON(), seen);"
  , "    if (seen.indexOf(value) !== -1) throw new TypeError('cyclic value');"
  , "    if (seen.length >= MAX_DEPTH) return marker('truncated');"
  , "    seen.push(value);"
  , "    var out;"
  , "    if (Array.isArray(value) || value instanceof Set) \x7b"
  , "      out = [];"
  , "      var items = Array.isArray(value) ? value : Array.from(value);"
  , "      for (var i = 0; i < items.length; i++) \x7b"
  , "        if (i === MAX_ENTRIES) \x7b"
  , "          out.push(marker('truncated', \x7b omitted: items.length - i \x7d));"
  , "          break;"
  , "        \x7d"
  , "        out.push(encode(items[i], seen));"
  , "      \x7d"
  , "    \x7d else \x7b"
  , "      out = \x7b\x7d;"
  , "      var entries = value instanceof Map ? Array.from(value.entries()) : Object.keys(value).map(function (k) \x7b"
  , "        return [k, value[k]];"
  , "      \x7d);"
  , "      for (var j = 0; j < entries.length; j++) \x7b"
  , "        if (j === MAX_ENTRIES) \x7b"
  , "          out['...'] = marker('truncated', \x7b omitted: entries.length - j \x7d);"
  , "          break;"
  , "        \x7d"
  , "        out[String(entries[j][0])] = encode(entries[j][1], seen);"
  , "      \x7d"
  , "    \x7d"
  , "    seen.pop();"
  , "    return out;"
  , "  \x7d"
  , ""
  , "  function capture(bindings) \x7b"
  , "    var vars = \x7b\x7d;"
  , "    if (!bindings) return vars;"
  , "    Object.keys(bindings).forEach(function (name) \x7b"
  , "      if (name === 'arguments') return;"
  , "      var raw;"
  , "      try \x7b"
  , "        raw = bindings[name];"
  , "      \x7d catch (err) \x7b"
  , "        vars[name] = marker('unavailable', \x7b reason: String(err && err.name) \x7d);"
  , "        return;"
  , "      \x7d"
  , "      try \x7b"
  , "        vars[name] = encode(raw, []);"
  , "      \x7d catch (err) \x7b"
  , "        vars[name] = marker('unserializable', \x7b reason: String(err && err.message) \x7d);"
  , "      \x7d"
  , "    \x7d);"
  , "    return vars;"
  , "  \x7d"
  , ""
  , "  root.__stepwiseRecord = function (line, column, bindings, ret, file) \x7b"
  , "    try \x7b"
  , "      var event = \x7b kind: 'record', line: line, column: column, vars: capture(bindings), ret: !!ret, ts: Date.now() \x7d;"
  , "      if (file) event.file = file;"
  , "      emit(event);"
  , "    \x7d catch (_) \x7b"
  , "      // never throws into instrumented code"
  , "    \x7d"
  , "  \x7d;"
  , ""
  , "  root.__stepwiseReset = function () \x7b"
  , "    emit(\x7b kind: 'reset' \x7d);"
  , "  \x7d;"
  , ""
  , "  function withArity(fn, length) \x7b"
  , "    try \x7b"
  , "      Object.defineProperty(fn, 'length', \x7b value: length \x7d);"
  , "    \x7d catch (_) \x7b\x7d"
  , "    return fn;"
  , "  \x7d"
  , ""
  , "  // Title of one `each` row, following the runners' printf-style and"
  , "  // `$field` placeholders."
  , "  function formatTitle(title, row, index) \x7b"
  , "    var next = 0;"
  , "    var text = String(title).replace(/%([sdifjop#%])/g, function (match, flag) \x7b"
  , "      if (flag === '%') return '%';"
  , "      if (flag === '#') return String(index);"
  , "      if (next >= row.length) return match;"
  , "      var value = row[next++];"
  , "      if (flag === 'd' || flag === 'i') return String(parseInt(value, 10));"
  , "      if (flag === 'f') return String(parseFloat(value));"
  , "      if (flag === 'j' || flag === 'o' || flag === 'p') \x7b"
  , "        try \x7b"
  , "          return JSON.stringify(value);"
  , "        \x7d catch (_) \x7b"
  , "          return String(value);"
  , "        \x7d"
  , "      \x7d"
  , "      return String(value);"
  , "    \x7d);"
  , "    var first = row[0];"
  , "    if (row.length === 1 && first && typeof first === 'object' && !Array.isArray(first)) \x7b"
  , "      text = text.replace(/\\$([A-Za-z_][\\w]*)/g, function (match, key) \x7b"
  , "        return key in first ? String(first[key]) : match;"
  , "      \x7d);"
  , "    \x7d"
  , "    return text;"
  , "  \x7d"
  , ""
  , "  // `x.each(table)` returns a declarator; wrap that one too, with titles"
  , "  // formatted per row."
  , "  function wrapEach(owner, each, wrap, level) \x7b"
  , "    return function () \x7b"
  , "      var declarator = each.apply(owner, arguments);"
  , "      return typeof declarator === 'function' ? wrap(declarator, true, level) : declarator;"
  , "    \x7d;"
  , "  \x7d"
  , ""
  , "  function copyStatics(from, to, wrap, level) \x7b"
  , "    Object.keys(from).forEach(function (key) \x7b"
  , "      to[key] = from[key];"
  , "    \x7d);"
  , "    // chainable runners expose endless variant chains; two levels cover"
  , "    // forms like `it.only.each` and `describe.skip.each`"
  , "    if (level >= 2) return to;"
  , "    VARIANTS.forEach(function (key) \x7b"
  , "      if (typeof from[key] === 'function') to[key] = wrap(from[key], false, level + 1);"
  , "    \x7d);"
  , "    if (typeof from.each === 'function') to.each = wrapEach(from, from.each, wrap, level + 1);"
  , "    return to;"
  , "  \x7d"
  , ""
  , "  function wrapSuite(original, perRow, level) \x7b"
  , "    if (original.__stepwise) return original;"
  , "    var wrapped = function (name, body) \x7b"
  , "      var args = Array.prototype.slice.call(arguments);"
  , "      if (typeof body === 'function') \x7b"
  , "        var index = 0;"
  , "        args[1] = withArity(function () \x7b"
  , "          var label = perRow ? formatTitle(name, Array.prototype.slice.call(arguments), index++) : String(name);"
  , "          suites.push(label);"
  , "          emit(\x7b kind: 'suite_enter', name: label \x7d);"
  , "          try \x7b"
  , "            return body.apply(this, arguments);"
  , "          \x7d finally \x7b"
  , "            suites.pop();"
  , "            emit(\x7b kind: 'suite_exit' \x7d);"
  , "          \x7d"
  , "        \x7d, body.length);"
  , "      \x7d"
  , "      return original.apply(this, args);"
  , "    \x7d;"
  , "    wrapped.__stepwise = true;"
  , "    return copyStatics(original, wrapped, wrapSuite, level || 0);"
  , "  \x7d"
  , ""
  , "  function wrapCase(original, perRow, level) \x7b"
  , "    if (original.__stepwise) return original;"
  , "    var wrapped = function (name, body) \x7b"
  , "      var args = Array.prototype.slice.call(arguments);"
  , "      if (typeof body === 'function') \x7b"
  , "        var path = suites.slice();"
  , "        var index = 0;"
  , "        args[1] = withArity(function () \x7b"
  , "          var ended = false;"
  , "          function end() \x7b"
  , "            if (ended) return;"
  , "            ended = true;"
  , "            emit(\x7b kind: 'case_end' \x7d);"
  , "          \x7d"
  , "          var callArgs = Array.prototype.slice.call(arguments);"
  , "          // plain cases get `done` first; `each` rows get it after the row values"
  , "          var doneAt = perRow ? body.length - 1 : 0;"
  , "          var usesDone ="
  , "            body.length > 0 &&"
  , "            (!perRow || callArgs.length === body.length) &&"
  , "            typeof callArgs[doneAt] === 'function';"
  , "          var row = usesDone && perRow ? callArgs.slice(0, doneAt) : callArgs;"
  , "          var label = perRow ? formatTitle(name, row, index++) : String(name);"
  , "          emit(\x7b kind: 'case_start', name: label, suite: path \x7d);"
  , "          if (usesDone) \x7b"
  , "            var done = callArgs[doneAt];"
  , "            var finish = function () \x7b"
  , "              end();"
  , "              return done.apply(this, arguments);"
  , "            \x7d;"
  , "            Object.keys(done).forEach(function (key) \x7b"
  , "              finish[key] = done[key];"
  , "            \x7d);"
  , "            callArgs[doneAt] = finish;"
  , "          \x7d"
  , "          var result;"
  , "          try \x7b"
  , "            result = body.apply(this, callArgs);"
  , "          \x7d catch (err) \x7b"
  , "            end();"
  , "            throw err;"
  , "          \x7d"
  , "          if (result && typeof result.then === 'function') \x7b"
  , "            return result.then("
  , "              function (value) \x7b"
  , "                end();"
  , "                return value;"
  , "              \x7d,"
  , "              function (err) \x7b"
  , "                end();"
  , "                throw err;"
  , "              \x7d"
  , "            );"
  , "          \x7d"
  , "          if (!usesDone) end();"
  , "          return result;"
  , "        \x7d, body.length);"
  , "      \x7d"
  , "      return original.apply(this, args);"
  , "    \x7d;"
  , "    wrapped.__stepwise = true;"
  , "    return copyStatics(original, wrapped, wrapCase, level || 0);"
  , "  \x7d"
  , ""
  , "  function installDeclarators() \x7b"
  , "    ['describe', 'context', 'suite'].forEach(function (key) \x7b"
  , "      if (typeof root[key] === 'function') root[key] = wrapSuite(root[key], false, 0);"
  , "    \x7d);"
  , "    ['it', 'test', 'specify'].forEach(function (key) \x7b"
  , "      if (typeof root[key] === 'function') root[key] = wrapCase(root[key], false, 0);"
  , "    \x7d);"
  , "  \x7d"
  , ""
  , "  root.__stepwiseInstall = installDeclarators;"
  , "  installDeclarators();"
  , "\x7d)(globalThis);" ]

/-- The script as one text. -/
def text : String := String.join (lines.map (· ++ "\n"))

end StepTrace.Prelude
